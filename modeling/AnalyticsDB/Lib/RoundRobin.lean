import Mathlib.Data.List.GetD
import Mathlib.Data.List.Rotate

/-!
# Taking turns with a counter that wraps

The elements of a list take turns by a counter: its value, modulo the length of the list, is
the position of the element whose turn it is.  The counter itself wraps at `m`.  Any turns of
as many as there are elements go once through the list if and only if the length of the list
divides `m`; otherwise the turns around a wrap repeat an element.
-/

namespace RoundRobin

variable {α : Type}

/-- The element whose turn it is when the counter was increased `v` times, and `d` when there is
none. -/
def turn (l : List α) (d : α) (m v : Nat) : α := l.getD (v % m % l.length) d

/-- The elements whose turn it is `n` times from `v` on. -/
def turns (l : List α) (d : α) (m v n : Nat) : List α :=
  (List.range n).map (fun j => turn l d m (v + j))

variable {l : List α} {d : α} {m : Nat}

@[simp]
theorem turn_mod (v : Nat) :
  turn l d m (v % m) = turn l d m v
  := by
  rw [turn, turn, Nat.mod_mod]

theorem turn_mul_add (t v : Nat) :
  turn l d m (m * t + v) = turn l d m v
  := by
  rw [turn, turn, Nat.mul_add_mod]

theorem turns_mod_add (v w n : Nat) :
  turns l d m (v % m + w) n = turns l d m (v + w) n
  := by
  apply List.map_congr_left
  intro j _
  rw [← turn_mod (v % m + w + j), Nat.add_assoc, Nat.mod_add_mod, turn_mod, Nat.add_assoc]

theorem turns_mul_add (t v n : Nat) :
  turns l d m (m * t + v) n = turns l d m v n
  := by
  apply List.map_congr_left
  intro j _
  rw [Nat.add_assoc, turn_mul_add]

theorem turns_succ (v n : Nat) :
  turns l d m v (n + 1) = turn l d m v :: turns l d m (v + 1) n
  := by
  simp only [turns, List.range_succ_eq_map, List.map_cons, List.map_map, Nat.add_zero,
    List.cons.injEq, true_and]
  apply List.map_congr_left
  intro j _
  simp only [Function.comp, Nat.add_assoc, Nat.add_comm 1]

theorem turns_succ_last (v n : Nat) :
  turns l d m v (n + 1) = turns l d m v n ++ [turn l d m (v + n)]
  := by
  rw [turns, List.range_succ, List.map_append]
  rfl

theorem turns_add (v n n' : Nat) :
  turns l d m v (n + n') = turns l d m v n ++ turns l d m (v + n) n'
  := by
  simp only [turns, List.range_add, List.map_append, List.map_map]
  congr 1
  apply List.map_congr_left
  intro j _
  simp only [Function.comp, Nat.add_assoc]

@[simp]
theorem length_turns (v n : Nat) : (turns l d m v n).length = n
  := by
  rw [turns, List.length_map, List.length_range]

theorem turns_nil (v n : Nat) :
  turns [] d m v n = List.replicate n d
  := by
  simp [turns, turn]

/-- The counter reaches the first `m` elements of a list only. -/
theorem turn_take (hm : 0 < m) (v : Nat) :
  turn (l.take m) d m v = turn l d m v
  := by
  unfold turn
  by_cases hle : l.length ≤ m
  · rw [List.take_of_length_le hle]
  · have hlength : (l.take m).length = m := List.length_take_of_le (by omega)
    have hv : v % m < m := Nat.mod_lt _ hm
    rw [hlength, Nat.mod_mod, Nat.mod_eq_of_lt (a := v % m) (by omega),
      List.getD_eq_getElem?_getD, List.getD_eq_getElem?_getD, List.getElem?_take_of_lt hv]

/-- Where the length divides `m`, the turns go around in the list. -/
theorem turns_eq_rotate (hdvd : l.length ∣ m) (v : Nat) :
  turns l d m v l.length = l.rotate v
  := by
  apply List.ext_getElem
  · simp
  · intro j hj _
    have hjl : j < l.length := by simpa using hj
    have hlt : (j + v) % l.length < l.length := Nat.mod_lt _ (by omega)
    rw [List.getElem_rotate]
    simp only [turns, List.getElem_map, List.getElem_range, turn]
    rw [Nat.mod_mod_of_dvd _ hdvd, Nat.add_comm v j, List.getD_eq_getElem _ _ hlt]

section

variable {R : List α}

/-- When any turns go once through `R`, the turns repeat after as many as `R` has elements. -/
theorem turn_add_length (h : ∀ v, (turns l d m v R.length).Perm R) (v : Nat) :
  turn l d m (v + R.length) = turn l d m v
  := by
  have hperm : (turn l d m v :: turns l d m (v + 1) R.length).Perm
      (turn l d m (v + R.length) :: R) := by
    rw [← turns_succ, turns_succ_last]
    apply (List.perm_append_singleton _ _).trans
    exact (h v).cons _
  have hperm' : (turn l d m v :: R).Perm (turn l d m (v + R.length) :: R) :=
    ((h (v + 1)).symm.cons _).trans hperm
  classical
  have hcount := hperm'.count_eq (turn l d m v)
  by_contra hne
  simp [hne] at hcount

theorem turn_mul_length (h : ∀ v, (turns l d m v R.length).Perm R) (t : Nat) :
  turn l d m (R.length * t) = turn l d m 0
  := by
  induction t with
  | zero => rw [Nat.mul_zero]
  | succ t ih => rw [Nat.mul_succ, turn_add_length h, ih]

/-- The turns of a list without repetitions, before the counter wraps. -/
theorem turn_of_lt {v : Nat} (hle : l.length ≤ m) (hv : v < l.length) :
  turn l d m v = l[v]
  := by
  rw [turn, Nat.mod_eq_of_lt (a := v) (b := m) (by omega), Nat.mod_eq_of_lt hv,
    List.getD_eq_getElem _ _ hv]

/-- Turns that go once through `R`, wherever they start, are those of a list with the elements of
`R` whose length divides `m`. -/
theorem perm_of_turns (hl : l.Nodup) (hne : l ≠ []) (hle : l.length ≤ m) (hR : R.Nodup)
    (hR' : R ≠ []) (h : ∀ v, (turns l d m v R.length).Perm R) :
  l.Perm R ∧ l.length ∣ m
  := by
  have hpos : 0 < l.length := List.length_pos_of_ne_nil hne
  have hzero : turn l d m 0 = l[0] := turn_of_lt hle hpos
  -- an element of the list has its turn again only with the first one's index
  have hfirst : ∀ v (hv : v < l.length), turn l d m v = turn l d m 0 → v = 0 := by
    intro v hv hsame
    rw [hzero, turn_of_lt hle hv] at hsame
    exact (List.Nodup.getElem_inj_iff hl).mp hsame
  have hRpos : 0 < R.length := List.length_pos_of_ne_nil hR'
  -- the list is not longer than `R`, since the turns repeat after the length of `R`
  have hge : l.length ≤ R.length := by
    by_contra hlt
    have hagain := turn_add_length h 0
    rw [Nat.zero_add] at hagain
    have := hfirst R.length (by omega) hagain
    omega
  -- and not shorter, since the first element would have its turn twice
  have hlast : turn l d m l.length = turn l d m 0 := by
    rcases hle.eq_or_lt with heq | hlt
    · rw [← turn_mod, ← heq, Nat.mod_self]
    · rw [turn, turn, Nat.mod_eq_of_lt hlt, Nat.mod_self, Nat.zero_mod, Nat.zero_mod]
  have hlength : R.length = l.length := by
    by_contra hne'
    have hnodup : (turns l d m 0 R.length).Nodup := (h 0).nodup_iff.mpr hR
    have hinjective := List.inj_on_of_nodup_map hnodup
    have hagain := hinjective (x := l.length) (y := 0) (List.mem_range.mpr (by omega))
      (List.mem_range.mpr hRpos)
    rw [Nat.zero_add, Nat.zero_add] at hagain
    have := hagain hlast
    omega
  constructor
  · have hself : turns l d m 0 R.length = l := by
      apply List.ext_getElem
      · simp [hlength]
      · intro j hj hj'
        simp only [turns, List.getElem_map, List.getElem_range, Nat.zero_add]
        exact turn_of_lt hle hj'
    have hwindow := h 0
    rw [hself] at hwindow
    exact hwindow
  · -- the turn after a whole number of rounds beyond the wrap is the first one's
    by_contra hdvd
    have hrest : 0 < m % l.length := Nat.pos_of_ne_zero (fun h => hdvd (Nat.dvd_of_mod_eq_zero h))
    have hrest' : m % l.length < l.length := Nat.mod_lt _ hpos
    have hround : l.length * (m / l.length + 1) = m * 1 + (l.length - m % l.length) := by
      have := Nat.div_add_mod m l.length
      rw [Nat.mul_add]
      omega
    have hwrapped := turn_mul_length h (m / l.length + 1)
    rw [hlength, hround, turn_mul_add] at hwrapped
    have := hfirst _ (by omega) hwrapped
    omega

end

/-- Any turns of as many as `R` has elements go once through `R` exactly when the elements that
take turns are those of `R` and their number divides `m`, or when nobody takes turns and `R` has
the default only. -/
theorem turns_perm_iff {R : List α} (hm : 0 < m) (hl : l.Nodup) (hR : R.Nodup) (hR' : R ≠ [])
    (c : Nat) :
  (∀ k, (turns l d m (c + k) R.length).Perm R)
    ↔ l = [] ∧ R = [d] ∨ l ≠ [] ∧ (l.take m).Perm R ∧ R.length ∣ m
  := by
  by_cases hne : l = []
  · subst hne
    simp only [turns_nil, true_and, ne_eq, not_true, false_and, or_false, forall_const]
    constructor
    · intro h
      have hnodup := h.nodup_iff.mpr hR
      rw [List.nodup_replicate] at hnodup
      have hone : R.length = 1 := by
        have := List.length_pos_of_ne_nil hR'
        omega
      rw [hone] at h
      exact List.singleton_perm.mp h |>.symm
    · rintro rfl
      exact List.Perm.refl _
  · simp only [hne, false_and, false_or, not_false_eq_true, true_and, ne_eq]
    have htake : ∀ v n, turns l d m v n = turns (l.take m) d m v n := by
      intro v n
      apply List.map_congr_left
      intro j _
      rw [turn_take hm]
    have hne' : l.take m ≠ [] := by
      simp [hne, Nat.ne_of_gt hm]
    constructor
    · intro h
      have hall : ∀ v, (turns (l.take m) d m v R.length).Perm R := by
        intro v
        -- after enough turns the counter has wrapped
        have hshift : c + (m * c + v - c) = m * c + v := by
          have := Nat.le_mul_of_pos_left c hm
          omega
        have hv := h (m * c + v - c)
        rw [hshift, turns_mul_add, htake] at hv
        exact hv
      obtain ⟨hperm, hdvd⟩ := perm_of_turns (hl.sublist (List.take_sublist _ _)) hne'
        (List.length_take_le _ _) hR hR' hall
      rw [hperm.length_eq] at hdvd
      exact ⟨hperm, hdvd⟩
    · rintro ⟨hperm, hdvd⟩ k
      rw [htake, ← hperm.length_eq, turns_eq_rotate (by rw [hperm.length_eq]; exact hdvd)]
      exact (List.rotate_perm _ _).trans hperm

end RoundRobin
