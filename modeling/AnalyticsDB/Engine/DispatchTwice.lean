import AnalyticsDB.Engine.DispatchOrder

/-!
# The same query twice

A query without aggregates is executed by every worker over its part of the rows, and once more by
the coordinator over what the workers give.  Only the name of the table is replaced in it.  The
second execution finds the columns of the first one where the original query finds those of the
table.
-/

namespace Sql.Dispatch

/-! ### The plans -/

/-- `SELECT DISTINCT` in two phases: both execute the query with the name of the table replaced. -/
def distributedDistinctPlan (q : Query) : Option (Query × Query) := do
  guard (!q.hasWith)
  guard (q.distinct ≠ .no && !q.having)
  guard q.groupBy.isEmpty
  guard (!projectionHasAggregate q.projection)
  return (q, q)

/-- ORDER BY and LIMIT in two phases. -/
def distributedOrderLimitPlan (q : Query) : Option (Query × Query) := do
  guard (!q.hasWith)
  guard (!(q.orderBy.isEmpty && q.limit.isNone && q.offset.isNone))
  guard (q.distinct = .no)
  guard q.groupBy.isEmpty
  guard (!projectionHasAggregate q.projection)
  return (q, q)

/-- A query that is executed twice. -/
def TakenTwice (q : Query) : Prop :=
  distributedDistinctPlan q = some (q, q) ∨ distributedOrderLimitPlan q = some (q, q)

theorem TakenTwice.groupBy_eq {q : Query} (h : TakenTwice q) : q.groupBy = []
  := by
  obtain h | h := h
  · simp only [distributedDistinctPlan, Option.bind_eq_bind, Option.bind_eq_some_iff] at h
    obtain ⟨_, -, _, -, _, hguard, -⟩ := h
    simpa using hguard
  · simp only [distributedOrderLimitPlan, Option.bind_eq_bind, Option.bind_eq_some_iff] at h
    obtain ⟨_, -, _, -, _, -, _, hguard, -⟩ := h
    simpa using hguard

/-- Over every split of the rows, what the coordinator makes of the results of the workers is a
result of the query. -/
def TwiceGives (lang : Language) (q : Query) (t : Table) : Prop :=
  ∀ parts : List (List (List Cell)), parts ≠ [] → parts.flatten = t.rows →
    ∀ outputs, List.Forall₂ (fun rows output => q.Gives lang ⟨t.columns, rows⟩ false output)
        parts outputs →
      ∀ result, q.Gives lang ⟨q.outputNames t.columns, outputs.flatten⟩ false result →
        q.Gives lang t true result

/-! ### Queries of single rows -/

/-- The columns a query reads. -/
def queryReads (lang : Language) (q : Query) (columns : List String) : List String :=
  (q.selection.map (·.reads lang)).getD []
    ++ (q.items columns).flatMap (·.expr.reads lang)
    ++ q.orderBy.flatMap (fun item =>
      ((q.orderExpr? columns item.expr).map (·.reads lang)).getD [])
    ++ (match q.distinct with
      | .on keys => keys.flatMap (·.reads lang)
      | .no | .rows => [])

/-- Neither an aggregate nor a window: every expression is one of a row. -/
structure Rowwise (q : Query) (columns : List String) : Prop where
  having : q.having = false
  groupByModifiers : q.groupByModifiers = false
  items : ∀ item ∈ q.items columns, item.expr.scalar?.isSome
  orderBy : ∀ item ∈ q.orderBy, ∀ e, q.orderExpr? columns item.expr = some e → e.scalar?.isSome

/-- Nothing is skipped, and a column of the result that the query reads is the column of the table
of that name. -/
structure Repeatable (lang : Language) (q : Query) (columns : List String) : Prop where
  rowwise : Rowwise q columns
  offset : q.offset.getD 0 = 0
  bare : ∀ item ∈ q.items columns, item.name ∈ queryReads lang q columns →
    ∃ text qualified, item.expr = .scalar (.column text item.name qualified)

section

variable {lang : Language} {q : Query} {columns : List String}

/-- The row of the result for a row. -/
def rowOf (lang : Language) (q : Query) (columns : List String) (x : Env) : List Cell :=
  (q.items columns).map (·.expr.value lang [] [x])

/-- The cells a row is ordered by. -/
def orderOf (lang : Language) (q : Query) (columns : List String) (x : Env) : List Cell :=
  q.orderBy.map (fun item =>
    ((q.orderExpr? columns item.expr).map (·.value lang [] [x])).join)

/-- What DISTINCT tells rows apart by. -/
def distinctOf (lang : Language) (q : Query) (columns : List String) (x : Env) :
    Option (List Cell) :=
  match q.distinct with
  | .no => none
  | .rows => some (rowOf lang q columns x)
  | .on keys => some (keys.map (·.eval lang x))

theorem isAggregate_eq_false (hgroup : q.groupBy = []) (h : Rowwise q columns) :
  q.isAggregate = false
  := by
  rw [Query.isAggregate, Bool.or_eq_false_iff]
  refine ⟨by simp [hgroup], ?_⟩
  rw [List.any_eq_false]
  intro entry hentry
  cases entry with
  | wildcard => simp
  | item item =>
      have hmem : item ∈ q.items columns :=
        List.mem_flatMap.mpr ⟨.item item, hentry, List.mem_singleton_self item⟩
      obtain ⟨e, he⟩ := Option.isSome_iff_exists.mp (h.items item hmem)
      simpa using SelectExpr.isAggregate_of_scalar? he

theorem value_eq_of_scalar? {expr : SelectExpr} (h : expr.scalar?.isSome) (rows : List Env)
    (x : Env) :
  expr.value lang rows [x] = expr.value lang [] [x]
  := by
  obtain ⟨e, he⟩ := Option.isSome_iff_exists.mp h
  rw [SelectExpr.value_of_scalar? he, SelectExpr.value_of_scalar? he]

theorem outputRow_singleton (h : Rowwise q columns) (rows : List (List Cell)) (x : Env) :
  q.outputRow lang ⟨columns, rows⟩ [x] = rowOf lang q columns x
  := by
  apply List.map_congr_left
  intro item hitem
  exact value_eq_of_scalar? (h.items item hitem) _ x

theorem orderKey_singleton (h : Rowwise q columns) (rows : List (List Cell)) (x : Env) :
  q.orderKey lang ⟨columns, rows⟩ [x] = orderOf lang q columns x
  := by
  apply List.map_congr_left
  intro item hitem
  cases hexpr : q.orderExpr? columns item.expr with
  | none => rfl
  | some e =>
      simp only [Option.map_some]
      rw [value_eq_of_scalar? (h.orderBy item hitem e hexpr)]

theorem distinctKey_singleton (h : Rowwise q columns) (rows : List (List Cell)) (x : Env) :
  q.distinctKey lang ⟨columns, rows⟩ [x] = distinctOf lang q columns x
  := by
  unfold Query.distinctKey distinctOf
  cases q.distinct with
  | no => rfl
  | rows => exact congrArg some (outputRow_singleton h rows x)
  | on keys => rfl

/-- A row may come before another one. -/
def RowBefore (lang : Language) (q : Query) (columns : List String) (x y : Env) : Prop :=
  keysLe q.orderBy (orderOf lang q columns x) (orderOf lang q columns y) = true

instance : DecidableRel (RowBefore lang q columns) :=
  fun _ _ => inferInstanceAs (Decidable (_ = true))

theorem rowBefore_trans (x y z : Env) (hxy : RowBefore lang q columns x y)
    (hyz : RowBefore lang q columns y z) :
  RowBefore lang q columns x z
  := keysLe_trans _ _ _ _ hxy hyz

theorem rowBefore_total (x y : Env) :
  RowBefore lang q columns x y ∨ RowBefore lang q columns y x
  := keysLe_total _ _ _

/-- The number of rows a query keeps, with at most `bound` of them there. -/
def keptRows (q : Query) (bound : Nat) : Nat := q.limit.getD bound

theorem cut_eq_take (hoffset : q.offset.getD 0 = 0) {bound : Nat} {α : Type} {l : List α}
    (hbound : l.length ≤ bound) :
  q.cut l = l.take (keptRows q bound)
  := by
  unfold Query.cut keptRows
  cases q.limit with
  | none =>
      simp only [hoffset, List.drop_zero, Option.getD_none]
      exact (List.take_of_length_le hbound).symm
  | some n => simp [hoffset]

/-- The results of a query of rows are those of its rows in their order. -/
theorem gives_iff (hgroup : q.groupBy = []) (h : Rowwise q columns)
    (hoffset : q.offset.getD 0 = 0) {bound : Nat} {rows : List (List Cell)} {named : Bool}
    (hbound : (q.passing lang ⟨columns, rows⟩).length ≤ bound) (result : List (List Cell)) :
  q.Gives lang ⟨columns, rows⟩ named result
    ↔ q.plans lang named columns = true
      ∧ ∃ kept, TopN.Gives (distinctOf lang q columns) (RowBefore lang q columns)
          (keptRows q bound) (q.passing lang ⟨columns, rows⟩) kept
        ∧ result = kept.map (rowOf lang q columns)
  := by
  have hgroups : q.groupsOf lang ⟨columns, rows⟩
      = (q.passing lang ⟨columns, rows⟩).map ([·]) := by
    simp [Query.groupsOf, isAggregate_eq_false hgroup h]
  have hfirsts : ∀ arranged : List Env,
      TopN.firsts (q.distinctKey lang ⟨columns, rows⟩) (arranged.map ([·]))
        = (TopN.firsts (distinctOf lang q columns) arranged).map ([·]) := by
    intro arranged
    apply TopN.firsts_map
    intro x _
    exact distinctKey_singleton h rows x
  have hsorted : ∀ arranged : List Env,
      (arranged.map ([·])).Pairwise (q.Before lang ⟨columns, rows⟩)
        ↔ arranged.Pairwise (RowBefore lang q columns) := by
    intro arranged
    rw [List.pairwise_map]
    simp only [Query.Before, orderKey_singleton h]
    rfl
  have hrows : ∀ arranged : List Env, arranged.Perm (q.passing lang ⟨columns, rows⟩) →
      (q.cut (TopN.firsts (q.distinctKey lang ⟨columns, rows⟩) (arranged.map ([·])))).map
          (q.outputRow lang ⟨columns, rows⟩)
        = ((TopN.firsts (distinctOf lang q columns) arranged).take (keptRows q bound)).map
          (rowOf lang q columns) := by
    intro arranged harranged
    have hlength : (TopN.firsts (distinctOf lang q columns) arranged).length ≤ bound :=
      ((TopN.firsts_sublist arranged).length_le.trans harranged.length_eq.le).trans hbound
    have hlength' : ((TopN.firsts (distinctOf lang q columns) arranged).map ([·])).length
        ≤ bound := by
      rwa [List.length_map]
    rw [hfirsts, cut_eq_take hoffset hlength', ← List.map_take, List.map_map]
    apply List.map_congr_left
    intro x _
    exact outputRow_singleton h rows x
  unfold Query.Gives
  rw [hgroups]
  apply and_congr_right
  intro _
  constructor
  · rintro ⟨arranged', hperm, hpairwise, rfl⟩
    obtain ⟨arranged, harranged, rfl⟩ := exists_perm_map hperm
    exact ⟨_, ⟨arranged, harranged, (hsorted arranged).mp hpairwise, rfl⟩,
      hrows arranged harranged⟩
  · rintro ⟨kept, ⟨arranged, harranged, hpairwise, rfl⟩, rfl⟩
    exact ⟨arranged.map ([·]), harranged.map _, (hsorted arranged).mpr hpairwise,
      (hrows arranged harranged).symm⟩

/-! ### The second execution -/

/-- A row of the result, by the names of its columns. -/
def resultEnv (lang : Language) (q : Query) (columns : List String) (x : Env) : Env :=
  Table.env (q.outputNames columns) (rowOf lang q columns x)

/-- The names an item of the projection gives. -/
def entryNames (columns : List String) : ProjectionItem → List String
  | .wildcard => columns
  | .item item => [item.name]

theorem outputNames_eq : q.outputNames columns = q.projection.flatMap (entryNames columns)
  := by
  unfold Query.outputNames Query.items
  rw [List.map_flatMap]
  apply List.flatMap_congr
  intro entry _
  cases entry with
  | wildcard => simp [entryNames, SelectItem.name, Function.comp_def]
  | item item => rfl

/-- The items of the second execution are those of the first one: a `*` that is not alone gives
names that are there. -/
theorem items_outputNames (hagain : (q.outputNames (q.outputNames columns)).Nodup) :
  q.items (q.outputNames columns) = q.items columns
  := by
  by_cases hwildcard : .wildcard ∈ q.projection
  · have hname : ∀ item, .item item ∈ q.projection → item.name ∈ q.outputNames columns := by
      intro item hitem
      rw [outputNames_eq]
      exact List.mem_flatMap.mpr ⟨_, hitem, List.mem_singleton_self _⟩
    by_cases hempty : q.outputNames columns = []
    · -- There are no items.
      have hitems : q.items columns = [] := List.map_eq_nil_iff.mp hempty
      rw [hitems, hempty]
      apply List.flatMap_eq_nil_iff.mpr
      intro entry hentry
      cases entry with
      | wildcard => rfl
      | item item =>
          have := hname item hentry
          rw [hempty] at this
          cases this
    · obtain ⟨before, after, hsplit⟩ := List.append_of_mem hwildcard
      rw [outputNames_eq, hsplit, List.flatMap_append, List.flatMap_cons, List.nodup_append,
        List.nodup_append] at hagain
      obtain ⟨-, ⟨-, -, hafter⟩, hbefore⟩ := hagain
      have hnone : ∀ entry ∈ q.projection,
          ∃ name ∈ entryNames (q.outputNames columns) entry, name ∈ q.outputNames columns := by
        intro entry hentry
        cases entry with
        | wildcard =>
            obtain ⟨name, hname⟩ := List.exists_mem_of_ne_nil _ hempty
            exact ⟨name, hname, hname⟩
        | item item => exact ⟨item.name, List.mem_singleton_self _, hname item hentry⟩
      have hbefore : before = [] := by
        apply List.eq_nil_iff_forall_not_mem.mpr
        intro entry hentry
        obtain ⟨name, hmem, hout⟩ := hnone entry (by simp [hsplit, hentry])
        exact hbefore name (List.mem_flatMap.mpr ⟨entry, hentry, hmem⟩) name
          (List.mem_append_left _ hout) rfl
      have hafter : after = [] := by
        apply List.eq_nil_iff_forall_not_mem.mpr
        intro entry hentry
        obtain ⟨name, hmem, hout⟩ := hnone entry (by simp [hsplit, hentry])
        exact hafter name hout name (List.mem_flatMap.mpr ⟨entry, hentry, hmem⟩) rfl
      have hcolumns : q.outputNames columns = columns := by
        rw [outputNames_eq, hsplit, hbefore, hafter]
        simp [entryNames]
      rw [hcolumns]
  · unfold Query.items
    apply List.flatMap_congr
    intro entry hentry
    cases entry with
    | wildcard => exact absurd hentry hwildcard
    | item item => rfl

theorem orderExpr?_congr {other : List String} (h : q.items other = q.items columns)
    (e : OrderExpr) :
  q.orderExpr? other e = q.orderExpr? columns e
  := by
  unfold Query.orderExpr?
  rw [h]

/-- What a query reads is there when it can be planned. -/
theorem queryReads_subset {named : Bool} (hplans : q.plans lang named columns) :
  queryReads lang q columns ⊆ columns
  := by
  simp only [Query.plans, Bool.and_eq_true] at hplans
  obtain ⟨⟨⟨⟨⟨hselection, -⟩, hitems⟩, -⟩, horder⟩, hdistinct⟩ := hplans
  have hall : ∀ {reads : List String}, reads.all (columns.contains ·) = true →
      ∀ name ∈ reads, name ∈ columns := by
    intro reads h name hname
    simpa using List.all_eq_true.mp h name hname
  have hexpr : ∀ e, q.plansExpr lang named columns e = true →
      ∀ name ∈ e.reads lang, name ∈ columns := by
    intro e he
    simp only [Query.plansExpr, Bool.and_eq_true] at he
    exact hall he.1.1.2
  intro name hname
  simp only [queryReads, List.mem_append] at hname
  obtain ((hname | hname) | hname) | hname := hname
  · cases hcase : q.selection with
    | none => simp [hcase] at hname
    | some e =>
        simp only [hcase, Option.all_some, Expr.resolves, Bool.and_eq_true] at hselection
        exact hall hselection.2 name (by simpa [hcase] using hname)
  · obtain ⟨item, hitem, hname⟩ := List.mem_flatMap.mp hname
    exact hexpr item.expr (List.all_eq_true.mp hitems item hitem) name hname
  · obtain ⟨item, hitem, hname⟩ := List.mem_flatMap.mp hname
    have hany := List.all_eq_true.mp horder item hitem
    obtain ⟨e, he, hplan⟩ := (Option.any_eq_true _ _).mp hany
    exact hexpr e hplan name (by simpa [he] using hname)
  · cases hcase : q.distinct with
    | no => simp [hcase] at hname
    | rows => simp [hcase] at hname
    | on keys =>
        simp only [Query.plansDistinct, hcase, Bool.and_eq_true] at hdistinct
        simp only [hcase] at hname
        obtain ⟨e, he, hname⟩ := List.mem_flatMap.mp hname
        have hresolves := List.all_eq_true.mp hdistinct.1 e he
        simp only [Expr.resolves, Bool.and_eq_true] at hresolves
        exact hall hresolves.2 name hname

/-- A column that is read has the cell it has in the table. -/
theorem resultEnv_of_read (h : Repeatable lang q columns)
    (hnames : (q.outputNames columns).Nodup) (x : Env) {name : String}
    (hread : name ∈ queryReads lang q columns) (hname : name ∈ q.outputNames columns) :
  resultEnv lang q columns x name = x name
  := by
  obtain ⟨item, hitem, rfl⟩ := List.mem_map.mp hname
  obtain ⟨text, qualified, hexpr⟩ := h.bare item hitem hread
  unfold resultEnv Table.env Query.outputNames rowOf
  rw [lookup_zip_map hnames hitem, hexpr]
  rfl

/-- Rows that agree in what is read are the same for a query. -/
theorem rowOf_congr (h : Rowwise q columns) {x y : Env}
    (hagree : ∀ name ∈ queryReads lang q columns, x name = y name) :
  q.passes lang x = q.passes lang y ∧ rowOf lang q columns x = rowOf lang q columns y
    ∧ orderOf lang q columns x = orderOf lang q columns y
    ∧ distinctOf lang q columns x = distinctOf lang q columns y
  := by
  simp only [queryReads, List.mem_append] at hagree
  have hvalue : ∀ expr : SelectExpr, expr.scalar?.isSome →
      (∀ name ∈ expr.reads lang, x name = y name) →
      expr.value lang [] [x] = expr.value lang [] [y] := by
    intro expr hsome hreads
    obtain ⟨e, he⟩ := Option.isSome_iff_exists.mp hsome
    rw [SelectExpr.value_of_scalar? he, SelectExpr.value_of_scalar? he]
    apply Expr.eval_congr
    rwa [← SelectExpr.reads_of_scalar? he]
  have hrow : rowOf lang q columns x = rowOf lang q columns y := by
    apply List.map_congr_left
    intro item hitem
    apply hvalue item.expr (h.items item hitem)
    intro name hname
    exact hagree name (.inl (.inl (.inr (List.mem_flatMap.mpr ⟨item, hitem, hname⟩))))
  refine ⟨?_, hrow, ?_, ?_⟩
  · unfold Query.passes
    cases hselection : q.selection with
    | none => rfl
    | some e =>
        have heval : e.eval lang x = e.eval lang y := by
          apply Expr.eval_congr
          intro name hname
          exact hagree name (.inl (.inl (.inl (by simpa [hselection] using hname))))
        simp [heval]
  · apply List.map_congr_left
    intro item hitem
    cases hexpr : q.orderExpr? columns item.expr with
    | none => rfl
    | some e =>
        rw [Option.map_some, Option.map_some, hvalue e (h.orderBy item hitem e hexpr)]
        intro name hname
        exact hagree name (.inl (.inr (List.mem_flatMap.mpr ⟨item, hitem, by simpa [hexpr]⟩)))
  · unfold distinctOf
    cases hdistinct : q.distinct with
    | no => rfl
    | rows => exact congrArg some hrow
    | on keys =>
        apply congrArg some
        apply List.map_congr_left
        intro e he
        apply Expr.eval_congr
        intro name hname
        apply hagree name
        right
        simpa [hdistinct] using ⟨e, he, hname⟩

/-- A query that can be planned without the name of the table can be planned with it. -/
theorem plans_named (h : q.plans lang false columns = true) : q.plans lang true columns = true
  := by
  have hresolves : ∀ e : Expr, e.resolves lang false columns = true →
      e.resolves lang true columns = true := by
    intro e he
    simp only [Expr.resolves, Bool.and_eq_true] at he ⊢
    exact ⟨rfl, he.2⟩
  have hexpr : ∀ e, q.plansExpr lang false columns e = true →
      q.plansExpr lang true columns e = true := by
    intro e he
    simp only [Query.plansExpr, Bool.and_eq_true] at he ⊢
    exact ⟨⟨⟨rfl, he.1.1.2⟩, he.1.2⟩, he.2⟩
  simp only [Query.plans, Bool.and_eq_true] at h ⊢
  obtain ⟨⟨⟨⟨⟨hselection, hgroup⟩, hitems⟩, hnames⟩, horder⟩, hdistinct⟩ := h
  refine ⟨⟨⟨⟨⟨?_, ?_⟩, ?_⟩, hnames⟩, ?_⟩, ?_⟩
  · cases hcase : q.selection with
    | none => rfl
    | some e =>
        rw [hcase] at hselection
        exact hresolves e hselection
  · apply List.all_eq_true.mpr
    intro item hitem
    obtain ⟨e, he, hplan⟩ := (Option.any_eq_true _ _).mp (List.all_eq_true.mp hgroup item hitem)
    exact (Option.any_eq_true _ _).mpr ⟨e, he, hresolves e hplan⟩
  · apply List.all_eq_true.mpr
    intro item hitem
    exact hexpr item.expr (List.all_eq_true.mp hitems item hitem)
  · apply List.all_eq_true.mpr
    intro item hitem
    obtain ⟨e, he, hplan⟩ := (Option.any_eq_true _ _).mp (List.all_eq_true.mp horder item hitem)
    exact (Option.any_eq_true _ _).mpr ⟨e, he, hexpr e hplan⟩
  · unfold Query.plansDistinct at hdistinct ⊢
    cases hcase : q.distinct with
    | no => rfl
    | rows =>
        rw [hcase] at hdistinct
        exact hdistinct
    | on keys =>
        simp only [hcase, Bool.and_eq_true] at hdistinct ⊢
        refine ⟨?_, hdistinct.2⟩
        apply List.all_eq_true.mpr
        intro e he
        exact hresolves e (List.all_eq_true.mp hdistinct.1 e he)

theorem Rowwise.of_items {other : List String} (h : Rowwise q columns)
    (hitems : q.items other = q.items columns) :
  Rowwise q other
  := by
  constructor
  · exact h.having
  · exact h.groupByModifiers
  · rw [hitems]
    exact h.items
  · intro item hitem e he
    rw [orderExpr?_congr hitems] at he
    exact h.orderBy item hitem e he

/-- What is read and computed depends on the items of the projection. -/
theorem of_items_eq {other : List String} (hitems : q.items other = q.items columns) :
  queryReads lang q other = queryReads lang q columns
    ∧ rowOf lang q other = rowOf lang q columns
    ∧ orderOf lang q other = orderOf lang q columns
    ∧ distinctOf lang q other = distinctOf lang q columns
  := by
  have hrow : rowOf lang q other = rowOf lang q columns := by
    unfold rowOf
    rw [hitems]
  refine ⟨?_, hrow, ?_, ?_⟩
  · unfold queryReads
    simp only [hitems, orderExpr?_congr hitems]
  · unfold orderOf
    simp only [orderExpr?_congr hitems]
  · unfold distinctOf
    rw [hrow]

/-- The results of the workers, by the rows they keep. -/
theorem exists_kept (hgroup : q.groupBy = []) (h : Rowwise q columns)
    (hoffset : q.offset.getD 0 = 0) {bound : Nat} {parts outputs : List (List (List Cell))}
    (hbound : ∀ rows ∈ parts, rows.length ≤ bound)
    (houtputs : List.Forall₂ (fun rows output => q.Gives lang ⟨columns, rows⟩ false output)
      parts outputs) :
  ∃ kepts : List (List Env), outputs = kepts.map (·.map (rowOf lang q columns))
    ∧ List.Forall₂
      (TopN.Gives (distinctOf lang q columns) (RowBefore lang q columns) (keptRows q bound))
      (parts.map (fun rows => q.passing lang ⟨columns, rows⟩)) kepts
  := by
  induction houtputs with
  | nil => exact ⟨[], rfl, .nil⟩
  | @cons rows output parts outputs hfirst _ ih =>
      obtain ⟨kepts, rfl, hkepts⟩ := ih (fun other hother =>
        hbound other (List.mem_cons_of_mem rows hother))
      have hlength : (q.passing lang ⟨columns, rows⟩).length ≤ bound := by
        apply (List.length_filter_le _ _).trans
        rw [Table.envs, List.length_map]
        exact hbound rows List.mem_cons_self
      obtain ⟨-, kept, hkept, rfl⟩ := (gives_iff hgroup h hoffset hlength output).mp hfirst
      exact ⟨kept :: kepts, rfl, .cons hkept hkepts⟩

/-- The rows the workers keep are rows that pass, and not more. -/
theorem kept_subperm {le : Env → Env → Prop} {key : Env → Option (List Cell)} {n : Nat}
    {parts kepts : List (List Env)} (h : List.Forall₂ (TopN.Gives key le n) parts kepts) :
  kepts.flatten.Subperm parts.flatten
  := by
  induction h with
  | nil => exact List.Subperm.refl _
  | @cons part kept parts kepts hfirst _ ih =>
      obtain ⟨arranged, harranged, -, rfl⟩ := hfirst
      rw [List.flatten_cons, List.flatten_cons]
      apply List.Subperm.append _ ih
      apply List.Subperm.trans _ harranged.subperm
      exact ((List.take_sublist _ _).trans (TopN.firsts_sublist arranged)).subperm

/-- A query that reads its own columns as it wrote them may be executed twice. -/
theorem twiceGives_of_repeatable {t : Table} (htaken : TakenTwice q)
    (h : Repeatable lang q t.columns) :
  TwiceGives lang q t
  := by
  intro parts hparts hflatten outputs houtputs result hresult
  have hgroup := htaken.groupBy_eq
  have hrowwise := h.rowwise
  have hplans : q.plans lang false t.columns = true := by
    obtain ⟨rows, rest, rfl⟩ := List.exists_cons_of_ne_nil hparts
    obtain ⟨output, outputs, hfirst, -, rfl⟩ := List.forall₂_cons_left_iff.mp houtputs
    exact hfirst.1
  have hagain := hresult.1
  have hnames := Query.nodup_of_plans hplans
  have hitems := items_outputNames (Query.nodup_of_plans hagain)
  obtain ⟨hreads, hrowOf, horderOf, hdistinctOf⟩ := @of_items_eq lang q _ _ hitems
  -- The rows of the workers read as those they are made of.
  have hagree : ∀ x : Env, ∀ name ∈ queryReads lang q t.columns,
      resultEnv lang q t.columns x name = x name := by
    intro x name hname
    apply resultEnv_of_read h hnames x hname
    apply queryReads_subset hagain
    rwa [hreads]
  have hcongr := fun x => rowOf_congr hrowwise (hagree x)
  have hbound : ∀ rows ∈ parts, rows.length ≤ t.rows.length := by
    intro rows hrows
    rw [← hflatten]
    exact (List.sublist_flatten_of_mem hrows).length_le
  obtain ⟨kepts, rfl, hkepts⟩ := exists_kept hgroup hrowwise h.offset hbound houtputs
  have hsubperm := kept_subperm hkepts
  rw [flatten_passing hflatten] at hsubperm
  have hpassing : (q.passing lang t).length ≤ t.rows.length := by
    apply (List.length_filter_le _ _).trans
    rw [Table.envs, List.length_map]
  have hpassingAgain : q.passing lang ⟨q.outputNames t.columns,
        (kepts.map (·.map (rowOf lang q t.columns))).flatten⟩
      = kepts.flatten.map (resultEnv lang q t.columns) := by
    have henvs : Table.envs ⟨q.outputNames t.columns,
          (kepts.map (·.map (rowOf lang q t.columns))).flatten⟩
        = kepts.flatten.map (resultEnv lang q t.columns) := by
      rw [Table.envs, ← List.map_flatten, List.map_map]
      rfl
    rw [Query.passing, henvs]
    apply List.filter_eq_self.mpr
    intro y hy
    obtain ⟨x, hx, rfl⟩ := List.mem_map.mp hy
    rw [(hcongr x).1]
    exact (List.mem_filter.mp (hsubperm.subset hx)).2
  have hlengthAgain : (q.passing lang ⟨q.outputNames t.columns,
      (kepts.map (·.map (rowOf lang q t.columns))).flatten⟩).length ≤ t.rows.length := by
    rw [hpassingAgain, List.length_map]
    exact hsubperm.length_le.trans hpassing
  -- The coordinator arranges the rows that the workers keep.
  obtain ⟨-, _, ⟨arranged', hperm, hsorted, rfl⟩, rfl⟩ :=
    (gives_iff hgroup (hrowwise.of_items hitems) h.offset hlengthAgain result).mp hresult
  rw [hpassingAgain] at hperm
  obtain ⟨arranged, harranged, rfl⟩ := exists_perm_map hperm
  have hgives : TopN.Gives (distinctOf lang q t.columns) (RowBefore lang q t.columns)
      (keptRows q t.rows.length) kepts.flatten
      ((TopN.firsts (distinctOf lang q t.columns) arranged).take (keptRows q t.rows.length)) := by
    refine ⟨arranged, harranged, ?_, rfl⟩
    rw [List.pairwise_map] at hsorted
    apply hsorted.imp
    intro x y hxy
    rw [RowBefore, horderOf, (hcongr x).2.2.1, (hcongr y).2.2.1] at hxy
    exact hxy
  have hall := TopN.gives_flatten rowBefore_trans rowBefore_total hkepts hgives
  rw [flatten_passing hflatten] at hall
  apply (gives_iff hgroup hrowwise h.offset hpassing _).mpr
  refine ⟨plans_named hplans, _, hall, ?_⟩
  have hfirsts : TopN.firsts (distinctOf lang q (q.outputNames t.columns))
        (arranged.map (resultEnv lang q t.columns))
      = (TopN.firsts (distinctOf lang q t.columns) arranged).map
        (resultEnv lang q t.columns) := by
    apply TopN.firsts_map
    intro x _
    rw [hdistinctOf]
    exact (hcongr x).2.2.2
  rw [hfirsts, ← List.map_take, List.map_map]
  apply List.map_congr_left
  intro x _
  rw [Function.comp_apply, hrowOf]
  exact (hcongr x).2.1

end

/-- `SELECT salary FROM employees ORDER BY salary LIMIT n OFFSET m`. -/
def orderedSalaries (limit offset : Option Nat) : Query where
  projection := [.item ⟨.scalar (.ofName "salary"), none⟩]
  orderBy := [{ expr := .expr (.scalar (.ofName "salary")) }]
  limit := limit
  offset := offset

theorem twiceGives_orderedSalaries :
  TwiceGives columnLanguage (orderedSalaries (some 2) none)
    (employees [("sales", 3), ("support", 1), ("sales", 2)])
  := by
  apply twiceGives_of_repeatable
  · exact .inr (by decide)
  · refine ⟨⟨rfl, rfl, ?_, ?_⟩, rfl, ?_⟩
    · decide
    · intro item hitem e he
      obtain rfl := List.mem_singleton.mp hitem
      obtain rfl : SelectExpr.scalar (.ofName "salary") = e := Option.some.inj he
      rfl
    · intro item hitem _
      obtain rfl := List.mem_singleton.mp hitem
      exact ⟨"salary", false, rfl⟩

/-- A salary is skipped by the worker, and another one by the coordinator. -/
theorem orderedSalaries_not_twiceGives :
  TakenTwice (orderedSalaries none (some 1))
    ∧ ¬ TwiceGives columnLanguage (orderedSalaries none (some 1))
      (employees [("sales", 1), ("support", 2), ("sales", 3)])
  := by
  refine ⟨.inr (by decide), ?_⟩
  intro htwice
  have hworker : (orderedSalaries none (some 1)).Gives columnLanguage
      (employees [("sales", 1), ("support", 2), ("sales", 3)]) false
      [[some (.integer 2)], [some (.integer 3)]] := by
    refine ⟨by decide, _, List.Perm.refl _, ?_, by decide⟩
    decide
  have hfinal : (orderedSalaries none (some 1)).Gives columnLanguage
      ⟨["salary"], [[some (.integer 2)], [some (.integer 3)]]⟩ false [[some (.integer 3)]] := by
    refine ⟨by decide, _, List.Perm.refl _, ?_, by decide⟩
    decide
  obtain ⟨-, arranged, hperm, -, hrows⟩ := htwice
    [(employees [("sales", 1), ("support", 2), ("sales", 3)]).rows] (by simp) (by simp) _
    (.cons hworker .nil) _ hfinal
  rw [Query.firsts_of_no rfl] at hrows
  have hlength := congrArg List.length hrows
  rw [List.length_map, Query.cut] at hlength
  have hthree : arranged.length = 3 := hperm.length_eq
  simp [orderedSalaries, hthree] at hlength

end Sql.Dispatch
