import AnalyticsDB.Engine.DispatchAggregate
import AnalyticsDB.Lib.SqlOrder

/-!
# The order of distributed aggregates

Neither the query of the workers nor that of the coordinator has the ORDER BY, LIMIT and OFFSET of
the original one.  The coordinator returns all rows, in some order.
-/

namespace Sql.Dispatch

variable {lang : Language} {q worker final : Query} {t : Table}

/-- Over every split of the rows the two phases give rows, and these are a result of the query in
every order they may come in. -/
def SameResult (lang : Language) (q worker final : Query) (t : Table) : Prop :=
  ∀ parts : List (List (List Cell)), parts ≠ [] → parts.flatten = t.rows →
    ∃ merged, runPartitions lang worker final t.columns parts = .ok merged
      ∧ ∀ rows : List (List Cell), rows.Perm merged.rows → q.Gives lang t true rows

/-- The clauses of a query change nothing on a table: nothing is skipped, nothing is cut off, and
all groups are tied. -/
structure Idle (lang : Language) (q : Query) (t : Table) : Prop where
  offset : q.offset.getD 0 = 0 ∨ q.groupsOf lang t = []
  limit : ∀ n, q.limit = some n → (q.groupsOf lang t).length ≤ n
  tied : ∀ group ∈ q.groupsOf lang t, ∀ other ∈ q.groupsOf lang t, q.Before lang t group other

/-! ### Lists and their images -/

theorem eq_of_map_eq {α β : Type} {f : α → β} {l l' : List α}
    (hinj : ∀ a ∈ l, ∀ b ∈ l', f a = f b → a = b) (h : l.map f = l'.map f) :
  l = l'
  := by
  induction l generalizing l' with
  | nil => exact (List.map_eq_nil_iff.mp h.symm).symm
  | cons a l ih =>
      obtain ⟨b, rest, rfl, hfirst, hrest⟩ := List.map_eq_cons_iff.mp h.symm
      rw [hinj a List.mem_cons_self b List.mem_cons_self hfirst.symm]
      rw [ih (fun x hx y hy => hinj x (List.mem_cons_of_mem a hx) y (List.mem_cons_of_mem b hy))
        hrest.symm]

/-- A permutation of an image is the image of a permutation. -/
theorem exists_perm_map {α β : Type} {f : α → β} {l : List α} {images : List β}
    (h : images.Perm (l.map f)) :
  ∃ arranged : List α, arranged.Perm l ∧ images = arranged.map f
  := by
  have hforall : List.Forall₂ (fun b a => b = f a) (l.map f) l := by
    rw [List.forall₂_map_left_iff, List.forall₂_same]
    intro a _
    rfl
  obtain ⟨arranged, himages, hperm⟩ := List.perm_comp_forall₂ h hforall
  refine ⟨arranged, hperm, ?_⟩
  rw [← List.forall₂_eq_eq_eq, List.forall₂_map_right_iff]
  exact himages

/-! ### What OFFSET and LIMIT leave -/

theorem length_cut_eq_iff {α : Type} (l : List α) :
  (q.cut l).length = l.length
    ↔ (q.offset.getD 0 = 0 ∨ l.length = 0) ∧ ∀ n, q.limit = some n → l.length ≤ n
  := by
  cases hlimit : q.limit with
  | none =>
      simp only [Query.cut, hlimit, List.length_drop, reduceCtorEq, false_implies, implies_true,
        and_true]
      omega
  | some n =>
      simp only [Query.cut, hlimit, List.length_take, List.length_drop, Option.some.injEq,
        forall_eq']
      omega

theorem cut_eq_self {α : Type} {l : List α} (h : (q.cut l).length = l.length) : q.cut l = l
  := by
  have hsublist : (q.cut l).Sublist l := by
    unfold Query.cut
    split
    · exact List.drop_sublist _ l
    · exact (List.take_sublist _ _).trans (List.drop_sublist _ l)
  exact hsublist.eq_of_length h

/-! ### The clauses that are dropped -/

/-- A plan that gives the right rows. -/
structure RightRows (lang : Language) (q worker final : Query) (t : Table) : Prop where
  plan : distributedAggregatePlan q = some (worker, final)
  mixed : Mixed q t.columns
  unreserved : Unreserved t.columns
  plans : q.plans lang true t.columns = true
  bothPlan : BothPlan lang worker final t.columns
  selectsKeys : SelectsKeys lang q t
  averagesExact : AveragesExact lang q t

namespace RightRows

theorem distinct_eq (h : RightRows lang q worker final t) : q.distinct = .no
  := by
  have hplan := h.plan
  simp only [distributedAggregatePlan, Option.bind_eq_bind, Option.bind_eq_some_iff] at hplan
  obtain ⟨_, -, _, hguard, -⟩ := hplan
  simp at hguard
  exact hguard.2

/-- The rows of the coordinator are those of the groups. -/
theorem merged_perm (h : RightRows lang q worker final t) {parts : List (List (List Cell))}
    (hparts : parts ≠ []) (hflatten : parts.flatten = t.rows) :
  ∃ merged, runPartitions lang worker final t.columns parts = .ok merged
    ∧ merged.rows.Perm ((q.groupsOf lang t).map (q.outputRow lang t))
  := by
  obtain ⟨items, workers, finals, hplanned⟩ := plannedAs h.plan
  refine ⟨_, runPartitions_ok h.bothPlan.1 h.bothPlan.2 parts, ?_⟩
  apply (hplanned.merged_perm h.mixed h.unreserved h.bothPlan.1 h.bothPlan.2 h.selectsKeys h.plans
    hparts hflatten).trans
  apply List.Perm.of_eq
  apply List.map_congr_left
  intro group hgroup
  exact (hplanned.mergedRow_eq_iff h.mixed group).mpr (h.averagesExact group hgroup)

/-- A group is known by its row. -/
theorem group_eq (h : RightRows lang q worker final t) {group other : List Env}
    (hgroup : group ∈ q.groupsOf lang t) (hother : other ∈ q.groupsOf lang t)
    (hrow : q.outputRow lang t group = q.outputRow lang t other) :
  group = other
  := by
  obtain ⟨items, workers, finals, hplanned⟩ := plannedAs h.plan
  apply hplanned.group_eq h.selectsKeys hgroup hother
  rw [← hrow]
  exact (hplanned.mergedRow_eq_iff h.mixed group).mpr (h.averagesExact group hgroup)

/-- An arrangement whose rows are a result is sorted, and nothing of it is cut off. -/
theorem sorted_of_gives (h : RightRows lang q worker final t) {arranged : List (List Env)}
    (hperm : arranged.Perm (q.groupsOf lang t))
    (hgives : q.Gives lang t true (arranged.map (q.outputRow lang t))) :
  arranged.Pairwise (q.Before lang t) ∧ (q.cut arranged).length = arranged.length
  := by
  obtain ⟨-, sorted, hsortedPerm, hsorted, hrows⟩ := hgives
  rw [Query.firsts_of_no h.distinct_eq] at hrows
  have hcut : (q.cut sorted).length = sorted.length := by
    have hlength := congrArg List.length hrows
    rw [List.length_map, List.length_map] at hlength
    rw [← hlength, hperm.length_eq, hsortedPerm.length_eq]
  rw [cut_eq_self hcut] at hrows
  have heq : arranged = sorted := by
    apply eq_of_map_eq _ hrows
    intro group hgroup other hother
    exact h.group_eq (hperm.subset hgroup) (hsortedPerm.subset hother)
  rw [heq]
  exact ⟨hsorted, hcut⟩

end RightRows

/-- `SELECT department, COUNT(*) FROM employees GROUP BY department LIMIT n`. -/
def countDepartments (n : Nat) : Query where
  projection := [.item ⟨.scalar (.ofName "department"), none⟩,
    .item ⟨.function "count" none "COUNT(*)", none⟩]
  groupBy := [.expr (.ofName "department")]
  limit := some n

theorem countDepartments_rightRows (n : Nat) :
  RightRows columnLanguage (countDepartments n) (plannedQueries (countDepartments n)).1
    (plannedQueries (countDepartments n)).2 (employees [("sales", 1), ("support", 4)])
  := by
  have hmix : Mixed (countDepartments n) ["department", "salary"] := by
    change ∀ item ∈ (countDepartments 0).items ["department", "salary"], _
    decide
  refine ⟨rfl, hmix, unreserved_employees _, ?_, ?_, ?_, ?_⟩
  · change (countDepartments 0).plans columnLanguage true ["department", "salary"] = true
    decide
  · change BothPlan columnLanguage (plannedQueries (countDepartments 0)).1
      (plannedQueries (countDepartments 0)).2 ["department", "salary"]
    unfold BothPlan
    decide
  · change SelectsKeys columnLanguage (countDepartments 0)
      (employees [("sales", 1), ("support", 4)])
    unfold SelectsKeys
    decide
  · apply averagesExact_of_forall rfl hmix
    change ∀ group ∈ (countDepartments 0).groupsOf columnLanguage
        (employees [("sales", 1), ("support", 4)]), _
    intro group hgroup
    change mergedRow columnLanguage ((countDepartments 0).items ["department", "salary"]) group
      = (countDepartments 0).outputRow columnLanguage (employees [("sales", 1), ("support", 4)])
        group
    revert group
    decide

end Sql.Dispatch
