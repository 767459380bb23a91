import Mathlib.Logic.Basic

/-!
# Computations that fail and keep their state

`Eff σ ε α` is a computation over a state `σ` that returns an `α` or fails with an `ε`.
A failure does not undo what was done before it: the state a failed computation leaves is
the state it had reached.  `exec m s` is the outcome of `m` at `s` together with that
state, and `After m s Q` says that `Q` holds of them.  `After` is computed by the rules
below, one for each way of building a computation.  `Returns m s Q` says it only of the
runs that do not fail.
-/

/-- A sequence of checks succeeds when both parts do. -/
theorem Except.bind_eq_ok_iff {ε α β : Type} {x : Except ε α} {f : α → Except ε β} {b : β} :
  x >>= f = .ok b ↔ ∃ a, x = .ok a ∧ f a = .ok b
  := by
  cases x with
  | ok a =>
      constructor
      · intro h
        exact ⟨a, rfl, h⟩
      · rintro ⟨_, ⟨⟩, h⟩
        apply h
  | error e =>
      constructor
      · intro h
        cases h
      · rintro ⟨_, h, _⟩
        cases h

/-- A computation over the state `σ` that may fail with `ε`. -/
abbrev Eff (σ ε α : Type) := ExceptT ε (StateM σ) α

namespace Eff

variable {σ ε α β : Type}

/-- The outcome of a computation started at `s`, and the state it leaves. -/
def exec (m : Eff σ ε α) (s : σ) : Except ε α × σ := StateT.run (ExceptT.run m) s

/-- `Q` holds of the outcome of `m` started at `s` and of the state it leaves. -/
def After (m : Eff σ ε α) (s : σ) (Q : Except ε α → σ → Prop) : Prop :=
  Q (exec m s).1 (exec m s).2

/-- Run a computation on a part of the state. -/
def zoom {τ : Type} (get : τ → σ) (put : σ → τ → τ) (m : Eff σ ε α) : Eff τ ε α :=
  ExceptT.mk (fun t => ((exec m (get t)).1, put (exec m (get t)).2 t))

/-- Run a computation and return its outcome instead of failing. -/
def attempt (m : Eff σ ε α) : Eff σ ε (Except ε α) :=
  ExceptT.mk (fun s => (.ok (exec m s).1, (exec m s).2))

@[simp]
theorem exec_attempt (m : Eff σ ε α) (s : σ) :
  exec (attempt m) s = (.ok (exec m s).1, (exec m s).2)
  := rfl

@[simp]
theorem exec_pure (a : α) (s : σ) :
  exec (pure a : Eff σ ε α) s = (.ok a, s)
  := rfl

@[simp]
theorem exec_throw (e : ε) (s : σ) :
  exec (throw e : Eff σ ε α) s = (.error e, s)
  := rfl

@[simp]
theorem exec_get (s : σ) :
  exec (get : Eff σ ε σ) s = (.ok s, s)
  := rfl

@[simp]
theorem exec_set (t s : σ) :
  exec (set t : Eff σ ε PUnit) s = (.ok ⟨⟩, t)
  := rfl

@[simp]
theorem exec_modify (f : σ → σ) (s : σ) :
  exec (modify f : Eff σ ε PUnit) s = (.ok ⟨⟩, f s)
  := rfl

/-- A sequence runs its second part at the state the first one leaves, unless the first
one fails. -/
theorem exec_bind (m : Eff σ ε α) (f : α → Eff σ ε β) (s : σ) :
  exec (m >>= f) s = match exec m s with
    | (.ok a, t) => exec (f a) t
    | (.error e, t) => (.error e, t)
  := by
  simp only [exec, ExceptT.run_bind, StateT.run_bind]
  rcases h : StateT.run (ExceptT.run m) s with ⟨r, t⟩
  cases r with
  | ok a => rfl
  | error e => rfl

@[simp]
theorem exec_zoom {τ : Type} (get : τ → σ) (put : σ → τ → τ) (m : Eff σ ε α) (t : τ) :
  exec (zoom get put m) t = ((exec m (get t)).1, put (exec m (get t)).2 t)
  := rfl

@[simp]
theorem after_pure (a : α) (s : σ) (Q : Except ε α → σ → Prop) :
  After (pure a : Eff σ ε α) s Q ↔ Q (.ok a) s
  := Iff.rfl

@[simp]
theorem after_throw (e : ε) (s : σ) (Q : Except ε α → σ → Prop) :
  After (throw e : Eff σ ε α) s Q ↔ Q (.error e) s
  := Iff.rfl

@[simp]
theorem after_get (s : σ) (Q : Except ε σ → σ → Prop) :
  After (get : Eff σ ε σ) s Q ↔ Q (.ok s) s
  := Iff.rfl

@[simp]
theorem after_modify (f : σ → σ) (s : σ) (Q : Except ε PUnit → σ → Prop) :
  After (modify f : Eff σ ε PUnit) s Q ↔ Q (.ok ⟨⟩) (f s)
  := Iff.rfl

/-- What has to hold after the first part of a sequence for `Q` to hold after the whole. -/
def Resume (f : α → Eff σ ε β) (Q : Except ε β → σ → Prop) : Except ε α → σ → Prop
  | .ok a, s => After (f a) s Q
  | .error e, s => Q (.error e) s

@[simp]
theorem resume_ok (f : α → Eff σ ε β) (Q : Except ε β → σ → Prop) (a : α) (s : σ) :
  Resume f Q (.ok a) s ↔ After (f a) s Q
  := Iff.rfl

@[simp]
theorem resume_error (f : α → Eff σ ε β) (Q : Except ε β → σ → Prop) (e : ε) (s : σ) :
  Resume f Q (.error e) s ↔ Q (.error e) s
  := Iff.rfl

@[simp]
theorem after_bind (m : Eff σ ε α) (f : α → Eff σ ε β) (s : σ)
    (Q : Except ε β → σ → Prop) :
  After (m >>= f) s Q ↔ After m s (Resume f Q)
  := by
  simp only [After, exec_bind]
  rcases exec m s with ⟨r, t⟩
  cases r with
  | ok a => exact Iff.rfl
  | error e => exact Iff.rfl

@[simp]
theorem after_ite (c : Prop) [Decidable c] (m n : Eff σ ε α) (s : σ)
    (Q : Except ε α → σ → Prop) :
  After (if c then m else n) s Q ↔ (c → After m s Q) ∧ (¬ c → After n s Q)
  := by
  by_cases h : c
  · simp [h]
  · simp [h]

@[simp]
theorem after_attempt (m : Eff σ ε α) (s : σ) (Q : Except ε (Except ε α) → σ → Prop) :
  After (attempt m) s Q ↔ After m s (fun r t => Q (.ok r) t)
  := Iff.rfl

/-- A weaker property holds after a computation when a stronger one does. -/
theorem After.mono {m : Eff σ ε α} {s : σ} {Q R : Except ε α → σ → Prop}
    (h : After m s Q) (hQR : ∀ r t, Q r t → R r t) :
  After m s R
  := hQR _ _ h

/-- Two properties that hold after a computation hold together. -/
theorem After.and {m : Eff σ ε α} {s : σ} {Q R : Except ε α → σ → Prop}
    (hQ : After m s Q) (hR : After m s R) :
  After m s (fun r t => Q r t ∧ R r t)
  := ⟨hQ, hR⟩

/-- What a computation leaves is its outcome and its state. -/
theorem After.outcome (m : Eff σ ε α) (s : σ) :
  After m s (fun r t => exec m s = (r, t))
  := rfl

/-- `Q` holds of the value `m` started at `s` returns, if it returns one, and of the state
it leaves. -/
def Returns (m : Eff σ ε α) (s : σ) (Q : α → σ → Prop) : Prop :=
  After m s (fun r t => ∀ a, r = .ok a → Q a t)

@[simp]
theorem returns_pure (a : α) (s : σ) (Q : α → σ → Prop) :
  Returns (pure a : Eff σ ε α) s Q ↔ Q a s
  := by
  simp [Returns]

@[simp]
theorem returns_throw (e : ε) (s : σ) (Q : α → σ → Prop) :
  Returns (throw e : Eff σ ε α) s Q
  := by
  simp [Returns]

@[simp]
theorem returns_get (s : σ) (Q : σ → σ → Prop) :
  Returns (get : Eff σ ε σ) s Q ↔ Q s s
  := by
  simp [Returns]

@[simp]
theorem returns_modify (f : σ → σ) (s : σ) (Q : PUnit → σ → Prop) :
  Returns (modify f : Eff σ ε PUnit) s Q ↔ Q ⟨⟩ (f s)
  := by
  rw [Returns, after_modify]
  constructor
  · intro h
    apply h ⟨⟩ rfl
  · intro h a _
    apply h

@[simp]
theorem returns_bind (m : Eff σ ε α) (f : α → Eff σ ε β) (s : σ) (Q : β → σ → Prop) :
  Returns (m >>= f) s Q ↔ Returns m s (fun a t => Returns (f a) t Q)
  := by
  rw [Returns, Returns, after_bind]
  rcases h : exec m s with ⟨r, t⟩
  simp only [After, h]
  cases r with
  | ok a => simp [Returns, After]
  | error e => simp

@[simp]
theorem returns_ite (c : Prop) [Decidable c] (m n : Eff σ ε α) (s : σ) (Q : α → σ → Prop) :
  Returns (if c then m else n) s Q ↔ (c → Returns m s Q) ∧ (¬ c → Returns n s Q)
  := after_ite c m n s _

@[simp]
theorem returns_attempt (m : Eff σ ε α) (s : σ) (Q : Except ε α → σ → Prop) :
  Returns (attempt m) s Q ↔ After m s Q
  := by
  simp [Returns, After]

/-- A weaker property holds of what a computation returns when a stronger one does. -/
theorem Returns.mono {m : Eff σ ε α} {s : σ} {Q R : α → σ → Prop}
    (h : Returns m s Q) (hQR : ∀ a t, Q a t → R a t) :
  Returns m s R
  := fun a ha => hQR a _ (h a ha)

/-- Two properties of what a computation returns hold together. -/
theorem Returns.and {m : Eff σ ε α} {s : σ} {Q R : α → σ → Prop}
    (hQ : Returns m s Q) (hR : Returns m s R) :
  Returns m s (fun a t => Q a t ∧ R a t)
  := fun a ha => ⟨hQ a ha, hR a ha⟩

/-- What holds of the state after every run holds also when a value is returned. -/
theorem Returns.with_after {m : Eff σ ε α} {s : σ} {Q : α → σ → Prop} {F : σ → Prop}
    (h : Returns m s Q) (hF : After m s (fun _ t => F t)) :
  Returns m s (fun a t => F t ∧ Q a t)
  := fun a ha => ⟨hF, h a ha⟩

/-- What a computation returns is its outcome. -/
theorem Returns.outcome (m : Eff σ ε α) (s : σ) :
  Returns m s (fun a t => exec m s = (.ok a, t))
  := fun _ ha => Prod.ext ha rfl

/-- What holds of every value and state holds of what is returned. -/
theorem Returns.of_forall {m : Eff σ ε α} {s : σ} {Q : α → σ → Prop} (h : ∀ a t, Q a t) :
  Returns m s Q
  := fun a _ => h a _

/-- What holds after every run holds of what is returned. -/
theorem Returns.of_after {m : Eff σ ε α} {s : σ} {Q : α → σ → Prop}
    (h : After m s (fun _ t => ∀ a, Q a t)) :
  Returns m s Q
  := fun a _ => h a

/-- `m` started at `s` returns a value, and `Q` holds of it and of the state it leaves. -/
def Succeeds (m : Eff σ ε α) (s : σ) (Q : α → σ → Prop) : Prop :=
  After m s (fun r t => ∃ a, r = .ok a ∧ Q a t)

@[simp]
theorem succeeds_pure (a : α) (s : σ) (Q : α → σ → Prop) :
  Succeeds (pure a : Eff σ ε α) s Q ↔ Q a s
  := by
  simp [Succeeds]

@[simp]
theorem succeeds_get (s : σ) (Q : σ → σ → Prop) :
  Succeeds (get : Eff σ ε σ) s Q ↔ Q s s
  := by
  simp [Succeeds]

@[simp]
theorem succeeds_bind (m : Eff σ ε α) (f : α → Eff σ ε β) (s : σ) (Q : β → σ → Prop) :
  Succeeds (m >>= f) s Q ↔ Succeeds m s (fun a t => Succeeds (f a) t Q)
  := by
  rw [Succeeds, Succeeds, after_bind]
  rcases h : exec m s with ⟨r, t⟩
  simp only [After, h]
  cases r with
  | ok a => simp [Succeeds, After]
  | error e => simp

@[simp]
theorem succeeds_ite (c : Prop) [Decidable c] (m n : Eff σ ε α) (s : σ) (Q : α → σ → Prop) :
  Succeeds (if c then m else n) s Q ↔ (c → Succeeds m s Q) ∧ (¬ c → Succeeds n s Q)
  := after_ite c m n s _

/-- A weaker property holds of what a computation succeeds with when a stronger one does. -/
theorem Succeeds.mono {m : Eff σ ε α} {s : σ} {Q R : α → σ → Prop}
    (h : Succeeds m s Q) (hQR : ∀ a t, Q a t → R a t) :
  Succeeds m s R
  := by
  obtain ⟨a, ha, hQ⟩ := h
  exact ⟨a, ha, hQR a _ hQ⟩

/-- A computation that succeeds has a property when it succeeds with a value that has it. -/
theorem Succeeds.congr_const {m : Eff σ ε α} {s : σ} {Q : α → σ → Prop} {p : Prop}
    (h : Succeeds m s (fun a t => Q a t ↔ p)) :
  Succeeds m s Q ↔ p
  := by
  obtain ⟨a, ha, hQ⟩ := h
  constructor
  · rintro ⟨b, hb, hQb⟩
    rw [ha] at hb
    cases hb
    exact hQ.mp hQb
  · intro hp
    exact ⟨a, ha, hQ.mpr hp⟩

/-- What is known of every value returned is known of the one a computation succeeds with. -/
theorem Succeeds.with_returns {m : Eff σ ε α} {s : σ} {Q R : α → σ → Prop}
    (h : Succeeds m s Q) (hR : Returns m s R) :
  Succeeds m s (fun a t => Q a t ∧ R a t)
  := by
  obtain ⟨a, ha, hQ⟩ := h
  exact ⟨a, ha, hQ, hR a ha⟩

/-- What is known of the state after every run is known of the one a computation succeeds
in. -/
theorem Succeeds.with_after {m : Eff σ ε α} {s : σ} {Q : α → σ → Prop} {F : σ → Prop}
    (h : Succeeds m s Q) (hF : After m s (fun _ t => F t)) :
  Succeeds m s (fun a t => Q a t ∧ F t)
  := by
  obtain ⟨a, ha, hQ⟩ := h
  exact ⟨a, ha, hQ, hF⟩

end Eff
