import AnalyticsDB.Lib.Effect
import Mathlib.Data.List.Forall2

/-!
# Lists element by element

A function that can fail, applied to every element of a list, succeeds when it does on each, with
the list of the results; and relations between the elements of two lists that stand at the same
positions.
-/

section

variable {α β γ : Type}

theorem List.mapM_some_iff {f : α → Option β} {as : List α} {bs : List β} :
  as.mapM f = some bs ↔ List.Forall₂ (fun a b => f a = some b) as bs
  := by
  induction as generalizing bs with
  | nil =>
      rw [List.forall₂_nil_left_iff]
      exact ⟨fun h => (Option.some.inj h).symm, fun h => h ▸ rfl⟩
  | cons a as ih =>
      rw [List.mapM_cons, List.forall₂_cons_left_iff]
      constructor
      · intro h
        obtain ⟨b, hb, h⟩ := Option.bind_eq_some_iff.mp h
        obtain ⟨rest, hrest, h⟩ := Option.bind_eq_some_iff.mp h
        exact ⟨b, rest, hb, ih.mp hrest, (Option.some.inj h).symm⟩
      · rintro ⟨b, rest, hb, hrest, rfl⟩
        rw [hb, ih.mpr hrest]
        rfl

theorem List.mapM_none_iff {f : α → Option β} {as : List α} :
  as.mapM f = none ↔ as.any (fun a => (f a).isNone) = true
  := by
  induction as with
  | nil => simp
  | cons a as ih =>
      rw [List.mapM_cons, List.any_cons, Bool.or_eq_true, ← ih]
      cases f a with
      | none => simp
      | some b => cases as.mapM f <;> simp

theorem List.mapM_ok_iff {ε : Type} {f : α → Except ε β} {as : List α} {bs : List β} :
  as.mapM f = .ok bs ↔ List.Forall₂ (fun a b => f a = .ok b) as bs
  := by
  induction as generalizing bs with
  | nil =>
      rw [List.forall₂_nil_left_iff]
      exact ⟨fun h => (Except.ok.inj h).symm, fun h => h ▸ rfl⟩
  | cons a as ih =>
      rw [List.mapM_cons, List.forall₂_cons_left_iff]
      constructor
      · intro h
        obtain ⟨b, hb, h⟩ := Except.bind_eq_ok_iff.mp h
        obtain ⟨rest, hrest, h⟩ := Except.bind_eq_ok_iff.mp h
        exact ⟨b, rest, hb, ih.mp hrest, (Except.ok.inj h).symm⟩
      · rintro ⟨b, rest, hb, hrest, rfl⟩
        rw [hb, ih.mpr hrest]
        rfl

/-- A function that fails on a list fails on an element. -/
theorem List.exists_of_mapM_error {ε : Type} {f : α → Except ε β} {as : List α} {e : ε}
    (h : as.mapM f = .error e) :
  ∃ a ∈ as, f a = .error e
  := by
  induction as with
  | nil => cases h
  | cons a as ih =>
      rw [List.mapM_cons] at h
      cases ha : f a with
      | error e' =>
          rw [ha] at h
          cases h
          exact ⟨a, List.mem_cons_self, ha⟩
      | ok b =>
          cases has : as.mapM f with
          | error e' =>
              rw [ha, has] at h
              cases h
              obtain ⟨a', hmem, ha'⟩ := ih has
              exact ⟨a', List.mem_cons_of_mem a hmem, ha'⟩
          | ok bs =>
              rw [ha, has] at h
              cases h

variable {R : α → β → Prop}

theorem List.Forall₂.exists_getElem? {l₁ : List α} {l₂ : List β} (h : List.Forall₂ R l₁ l₂)
    {i : Nat} {a : α} (hi : l₁[i]? = some a) :
  ∃ b, l₂[i]? = some b ∧ R a b
  := by
  induction h generalizing i with
  | nil => cases hi
  | cons hab _ ih =>
      cases i with
      | zero =>
          cases hi
          exact ⟨_, rfl, hab⟩
      | succ i => exact ih hi

theorem List.Forall₂.exists_mem {l₁ : List α} {l₂ : List β} (h : List.Forall₂ R l₁ l₂) {a : α}
    (ha : a ∈ l₁) :
  ∃ b ∈ l₂, R a b
  := by
  obtain ⟨i, hi⟩ := List.mem_iff_getElem?.mp ha
  obtain ⟨b, hb, hR⟩ := h.exists_getElem? hi
  exact ⟨b, List.mem_of_getElem? hb, hR⟩

theorem List.Forall₂.through {S : β → γ → Prop} {T : α → γ → Prop} {l₁ : List α} {l₂ : List β}
    {l₃ : List γ} (hR : List.Forall₂ R l₁ l₂) (hS : List.Forall₂ S l₂ l₃)
    (hT : ∀ a b c, R a b → S b c → T a c) :
  List.Forall₂ T l₁ l₃
  := by
  induction hR generalizing l₃ with
  | nil =>
      cases hS
      exact List.Forall₂.nil
  | cons hab _ ih =>
      cases hS with
      | cons hbc hS => exact List.Forall₂.cons (hT _ _ _ hab hbc) (ih hS)

end
