import AnalyticsDB.Lib.Run
import Mathlib.Logic.Function.Basic
import Mathlib.Data.Finset.Card

/-!
# Tasks over a shared state

Any number of tasks work on one shared state.  A step lets one of them make its next move; what
the world outside answers is part of the step.  What is true of every task is kept by a step when
the task that moves keeps it, and the others do although the shared state changed under them.
-/

namespace Tasks

variable {ι σ τ ε : Type} [DecidableEq ι]

/-- A shared state and the tasks that work on it. -/
structure System (ι σ τ : Type) where
  shared : σ
  task : ι → τ

/-- The system after task `i` changed the shared state and itself. -/
def System.after (s : System ι σ τ) (i : ι) (next : σ × τ) : System ι σ τ :=
  { shared := next.1
    task := Function.update s.task i next.2 }

@[simp]
theorem System.after_shared (s : System ι σ τ) (i : ι) (next : σ × τ) :
  (s.after i next).shared = next.1
  := rfl

@[simp]
theorem System.after_task_self (s : System ι σ τ) (i : ι) (next : σ × τ) :
  (s.after i next).task i = next.2
  := Function.update_self ..

theorem System.after_task_other (s : System ι σ τ) {i j : ι} (next : σ × τ) (hj : j ≠ i) :
  (s.after i next).task j = s.task j
  := Function.update_of_ne hj ..

/-- What is true of the task that changed and of the others is true of every task. -/
theorem System.forall_after (P : ι → τ → Prop) (s : System ι σ τ) (i : ι) {next : σ × τ}
    (hself : P i next.2) (hother : ∀ j, j ≠ i → P j (s.task j)) :
  ∀ j, P j ((s.after i next).task j)
  := by
  intro j
  by_cases hj : j = i
  · subst hj
    rw [System.after_task_self]
    exact hself
  · rw [System.after_task_other s next hj]
    exact hother j hj

/-- The tasks that hold a permit and the permits that are free are together at most `limit`. -/
def System.Within (s : System ι σ τ) (holds : τ → Prop) (free limit : Nat) : Prop :=
  ∀ holders : Finset ι, (∀ i ∈ holders, holds (s.task i)) → holders.card + free ≤ limit

namespace System.Within

variable {s : System ι σ τ} {holds : τ → Prop} {free limit : Nat} {i : ι} {next : σ × τ}

/-- A task that moves without taking a permit. -/
theorem keep (h : s.Within holds free limit) (hnext : holds next.2 → holds (s.task i)) :
  (s.after i next).Within holds free limit
  := by
  intro holders hholders
  apply h holders
  intro j hj
  have hholds := hholders j hj
  by_cases hji : j = i
  · subst hji
    rw [System.after_task_self] at hholds
    exact hnext hholds
  · rwa [System.after_task_other s next hji] at hholds

/-- A task that takes a free permit. -/
theorem take (h : s.Within holds (free + 1) limit) :
  (s.after i next).Within holds free limit
  := by
  intro holders hholders
  have hothers := h (holders.erase i) (by
    intro j hj
    obtain ⟨hji, hj⟩ := Finset.mem_erase.mp hj
    rw [← System.after_task_other s next hji]
    exact hholders j hj)
  have hcard := @Finset.pred_card_le_card_erase _ holders i _
  omega

/-- A task that gives its permit back. -/
theorem give (h : s.Within holds free limit) (hself : holds (s.task i)) (hnext : ¬ holds next.2) :
  (s.after i next).Within holds (free + 1) limit
  := by
  intro holders hholders
  have hi : i ∉ holders := by
    intro hi
    have hholds := hholders i hi
    rw [System.after_task_self] at hholds
    exact hnext hholds
  have hall := h (insert i holders) (by
    intro j hj
    rcases Finset.mem_insert.mp hj with rfl | hj
    · exact hself
    · have hji : j ≠ i := fun hji => hi (hji ▸ hj)
      rw [← System.after_task_other s next hji]
      exact hholders j hj)
  rw [Finset.card_insert_of_notMem hi] at hall
  omega

end System.Within

variable (move : ε → ι → σ → τ → σ × τ)

/-- A task makes its next move, with the answers of the world outside. -/
def perform (call : ι × ε) (s : System ι σ τ) : System ι σ τ :=
  s.after call.1 (move call.2 call.1 s.shared (s.task call.1))

/-- The steps of the tasks, each taken only where it is allowed. -/
def Step (allowed : ι × ε → System ι σ τ → Prop) : System ι σ τ → System ι σ τ → Prop :=
  Run.byOps (perform move) allowed

end Tasks
