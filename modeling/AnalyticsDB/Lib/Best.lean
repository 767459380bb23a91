import AnalyticsDB.Lib.Effect
import Mathlib.Data.List.Perm.Basic

/-!
# The best of some candidates

The candidates are asked for one after the other; some are not there, and one that cannot be asked
for ends the search.  A candidate takes the place of the best one so far when it is better.  Which
one is found may depend on the order; whether one is found does not.
-/

namespace Best

variable {α β ε : Type} (candidate : α → Except ε (Option β)) (better : β → β → Bool)

/-- The better one of a candidate and the best one so far. -/
def keep (best : Option β) (b : β) : β :=
  match best with
  | none => b
  | some c => if better b c then b else c

def search : Option β → List α → Except ε (Option β)
  | best, [] => .ok best
  | best, a :: rest => do
    match ← candidate a with
    | none => search best rest
    | some b => search (some (keep better best b)) rest

theorem keep_eq (best : Option β) (b : β) :
  keep better best b = b ∨ best = some (keep better best b)
  := by
  cases best with
  | none => exact .inl rfl
  | some c =>
      rw [keep]
      split
      · exact .inl rfl
      · exact .inr rfl

/-- A search ends when every candidate can be asked for. -/
theorem search_ok_iff (best : Option β) {as : List α} :
  (∃ found, search candidate better best as = .ok found)
    ↔ ∀ a ∈ as, ∃ asked, candidate a = .ok asked
  := by
  induction as generalizing best with
  | nil => simp [search]
  | cons a rest ih =>
      rw [List.forall_mem_cons, search]
      cases candidate a with
      | error e => simp [bind, Except.bind]
      | ok asked => cases asked <;> simp [bind, Except.bind, ih]

variable {candidate better}

/-- What is found was asked for. -/
theorem mem_of_search {best : Option β} {as : List α} {b : β}
    (h : search candidate better best as = .ok (some b)) :
  best = some b ∨ ∃ a ∈ as, candidate a = .ok (some b)
  := by
  induction as generalizing best with
  | nil => exact .inl (Except.ok.inj h)
  | cons a rest ih =>
      rw [search] at h
      obtain ⟨asked, hasked, h⟩ := Except.bind_eq_ok_iff.mp h
      cases asked with
      | none =>
          obtain hbest | ⟨a', ha', hb⟩ := ih h
          · exact .inl hbest
          · exact .inr ⟨a', List.mem_cons_of_mem a ha', hb⟩
      | some c =>
          obtain hbest | ⟨a', ha', hb⟩ := ih h
          · obtain hkeep | hkeep := keep_eq better best c
            · rw [hkeep, Option.some.injEq] at hbest
              subst hbest
              exact .inr ⟨a, List.mem_cons_self, hasked⟩
            · exact .inl (hkeep.trans hbest)
          · exact .inr ⟨a', List.mem_cons_of_mem a ha', hb⟩

/-- Something is found when a candidate is there. -/
theorem search_isSome {best : Option β} {as : List α} {found : Option β}
    (h : search candidate better best as = .ok found) :
  found.isSome ↔ best.isSome ∨ ∃ a ∈ as, ∃ b, candidate a = .ok (some b)
  := by
  induction as generalizing best with
  | nil =>
      cases h
      simp
  | cons a rest ih =>
      rw [search] at h
      obtain ⟨asked, hasked, h⟩ := Except.bind_eq_ok_iff.mp h
      rw [List.exists_mem_cons_iff, hasked]
      cases asked with
      | none => simp [ih h]
      | some c => simp [ih h]

variable (candidate better) in
/-- A candidate that is there is found, or another one, when none fails. -/
theorem search_finds {as : List α} :
  (∃ b, search candidate better none as = .ok (some b))
    ↔ (∀ a ∈ as, ∃ asked, candidate a = .ok asked)
      ∧ ∃ a ∈ as, ∃ b, candidate a = .ok (some b)
  := by
  constructor
  · rintro ⟨b, hb⟩
    refine ⟨(search_ok_iff candidate better none).mp ⟨_, hb⟩, ?_⟩
    simpa using (search_isSome hb).mp rfl
  · rintro ⟨hok, hsome⟩
    obtain ⟨found, hfound⟩ := (search_ok_iff candidate better none).mpr hok
    obtain ⟨b, rfl⟩ := Option.isSome_iff_exists.mp ((search_isSome hfound).mpr (.inr hsome))
    exact ⟨b, hfound⟩

end Best
