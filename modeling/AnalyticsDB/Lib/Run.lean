import Mathlib.Logic.Basic

/-!
# Runs of a transition system

The states a system reaches from its initial states by its steps, and the induction over
them: a property of the initial states that every step keeps holds of every reachable
state.
-/

namespace Run

variable {σ : Type} {init : σ → Prop} {next : σ → σ → Prop}

/-- The states reached from a state satisfying `init` by finitely many `next` steps. -/
inductive Reachable (init : σ → Prop) (next : σ → σ → Prop) : σ → Prop
  | start {s : σ} : init s → Reachable init next s
  | step {s t : σ} : Reachable init next s → next s t → Reachable init next t

/-- A property of the initial states that every step keeps holds of every reachable
state. -/
theorem Reachable.invariant {P : σ → Prop} (hinit : ∀ s, init s → P s)
    (hnext : ∀ s t, P s → next s t → P t) {s : σ} (h : Reachable init next s) :
  P s
  := by
  induction h with
  | start hs => apply hinit _ hs
  | step _ hst ih => apply hnext _ _ ih hst

/-- The steps of a system whose operations `Op` are functions of the state, each taken only
where `allowed` permits it. -/
def byOps {Op : Type} (apply : Op → σ → σ) (allowed : Op → σ → Prop) (s t : σ) : Prop :=
  ∃ op, allowed op s ∧ apply op s = t

/-- Performing a list of operations one after another. -/
def performAll {Op : Type} (apply : Op → σ → σ) (ops : List Op) (s : σ) : σ :=
  ops.foldl (fun s op => apply op s) s

/-- Every operation of a list is allowed where it is performed. -/
def AllAllowed {Op : Type} (apply : Op → σ → σ) (allowed : Op → σ → Prop) : List Op → σ → Prop
  | [], _ => True
  | op :: ops, s => allowed op s ∧ AllAllowed apply allowed ops (apply op s)

instance AllAllowed.decidable {Op : Type} (apply : Op → σ → σ) (allowed : Op → σ → Prop)
    [∀ op s, Decidable (allowed op s)] : ∀ ops s, Decidable (AllAllowed apply allowed ops s)
  | [], _ => .isTrue trivial
  | op :: ops, s =>
    have : Decidable (AllAllowed apply allowed ops (apply op s)) :=
      AllAllowed.decidable apply allowed ops (apply op s)
    inferInstanceAs (Decidable (allowed op s ∧ AllAllowed apply allowed ops (apply op s)))

/-- Where everything is allowed, every list of operations is. -/
theorem allAllowed_true {Op : Type} {apply : Op → σ → σ} (ops : List Op) (s : σ) :
  AllAllowed apply (fun _ _ => True) ops s
  := by
  induction ops generalizing s with
  | nil => trivial
  | cons op ops ih => exact ⟨trivial, ih _⟩

/-- Operations are allowed one after another when the first ones are, and the others after them. -/
theorem allAllowed_append {Op : Type} {apply : Op → σ → σ} {allowed : Op → σ → Prop}
    (ops ops' : List Op) (s : σ) :
  AllAllowed apply allowed (ops ++ ops') s
    ↔ AllAllowed apply allowed ops s ∧ AllAllowed apply allowed ops' (performAll apply ops s)
  := by
  induction ops generalizing s with
  | nil => simp only [List.nil_append, AllAllowed, performAll, List.foldl_nil, true_and]
  | cons op ops ih =>
      simp only [List.cons_append, AllAllowed, performAll, List.foldl_cons, ih, and_assoc]

/-- What allowed operations lead to is reachable. -/
theorem Reachable.performAll {Op : Type} {apply : Op → σ → σ} {allowed : Op → σ → Prop}
    {ops : List Op} {s : σ} (h : Reachable init (byOps apply allowed) s)
    (hops : AllAllowed apply allowed ops s) :
  Reachable init (byOps apply allowed) (performAll apply ops s)
  := by
  induction ops generalizing s with
  | nil => exact h
  | cons op ops ih => exact ih (h.step ⟨op, hops.1, rfl⟩) hops.2

end Run
