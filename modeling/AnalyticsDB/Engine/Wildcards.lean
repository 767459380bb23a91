import AnalyticsDB.Engine.ViewExpansion
import AnalyticsDB.Lib.Elementwise
import AnalyticsDB.Lib.Text
import Mathlib.Data.List.Nodup
import Mathlib.Data.List.Perm.Basic

/-!
# Wildcards

The rewriter replaces a wildcard by the columns of the tables that it knows: of those that it finds
in the catalogue, but not of subqueries, functions and common table expressions.  It keeps them in
a hash map by the names they go by, and writes down their columns in the order of the map, each
without quotes.  So a wildcard stands for the same columns as before when only one known table has
columns to show and these are all columns of the FROM.
-/

namespace Rewriter

open Deep

/-! ### What a wildcard stands for -/

/-- The items of a FROM in their order, each with the name it goes by and its columns. -/
abbrev Scope := List (String × List String)

namespace Scope

variable (scope : Scope)

/-- The columns of all items, by the positions of the item and the column. -/
def refs : List (Nat × Nat) :=
  (List.range scope.length).flatMap (fun i =>
    (List.range ((scope[i]?.map (·.2.length)).getD 0)).map (fun j => (i, j)))

/-- The name of the item of a column. -/
def itemName (ref : Nat × Nat) : Option String := scope[ref.1]?.map Prod.fst

/-- The name of a column. -/
def columnName (ref : Nat × Nat) : Option String := scope[ref.1]?.bind (fun item => item.2[ref.2]?)

/-- The columns that are not hidden. -/
def visible : List (Nat × Nat) := scope.refs.filter (fun ref => scope.columnName ref ≠ some "_row_id")

variable (read : String → Option String)

/-- The columns that a wildcard selects of some columns: all, or those of the item that a written
name is read as. -/
def select (aliasName : Option String) (refs : List (Nat × Nat)) : List (Nat × Nat) :=
  match aliasName with
  | none => refs
  | some aliasName => refs.filter (fun ref => scope.itemName ref = read aliasName)

/-- A column is the only one that a written name stands for, alone or after that of an item. -/
def Resolves : List String → Nat × Nat → Prop
  | [name], ref =>
    ref ∈ scope.refs ∧ ∀ other ∈ scope.refs, scope.columnName other = read name ↔ other = ref
  | [aliasName, name], ref =>
    ref ∈ scope.refs ∧ ∀ other ∈ scope.refs,
      (scope.itemName other = read aliasName ∧ scope.columnName other = read name) ↔ other = ref
  | _, _ => False

/-- The column that an expression shows is written with a name; a default does not change which
one it is. -/
inductive Writes : Expr → List String → Prop where
  | identifier (name : String) : Writes (.identifier name) [name]
  | compoundIdentifier (parts : List String) : Writes (.compoundIdentifier parts) parts
  | coalesce (expr : Expr) (rest : List Expr) (parts : List String) (h : Writes expr parts) :
    Writes (.operation "COALESCE" (expr :: rest)) parts

/-- The columns that an item of a projection shows. -/
inductive Shows : SelectItem → List (Nat × Nat) → Prop where
  | wildcard : Shows .wildcard scope.refs
  | qualifiedWildcard (aliasName : String) :
    Shows (.qualifiedWildcard aliasName) (scope.select read (some aliasName) scope.refs)
  | expr (expr : Expr) (aliasName : Option String) (parts : List String) (ref : Nat × Nat)
    (hwrites : Writes expr parts) (hresolves : scope.Resolves read parts ref) :
    Shows (.expr expr aliasName) [ref]

/-- The columns that a projection shows. -/
def ShowsAll (items : List SelectItem) (refs : List (Nat × Nat)) : Prop :=
  ∃ shown, List.Forall₂ (scope.Shows read) items shown ∧ shown.flatten = refs

end Scope

/-! ### The tables that are known -/

section

variable (env : Env)

/-- The columns that are remembered of a table, under the name it goes by. -/
def knownTable : TableFactor → Option (String × List (String × Option String))
  | .table name aliasName false =>
    let idents := name.map env.lower
    let effectiveAlias := aliasName.getD (idents.getLast?.getD "")
    match (matchedPgCatalog idents).bind systemColumns with
    | some columns => some (effectiveAlias, columns.map (·, none))
    | none => (env.find idents).map (fun relation =>
        (effectiveAlias, relation.columns.map (fun c => (c.name, c.defaultValue))))
  | _ => none

def remember (schemas : TableSchemas) (relation : TableFactor) : TableSchemas :=
  match knownTable env relation with
  | some (aliasName, columns) => schemas.insert aliasName columns
  | none => schemas

/-- The tables of a FROM that are known. -/
def knownTables (sources : List Source) : TableSchemas :=
  (sources.map (fun (.mk _ relation _) => relation)).foldl (remember env) []

/-- The wildcard of all items or of one. -/
def wildcardItem : Option String → SelectItem
  | none => .wildcard
  | some aliasName => .qualifiedWildcard aliasName

/-- The items that a wildcard is replaced by, where the map has the tables in some order. -/
def expandWildcard (order : TableSchemas) : Option String → List SelectItem
  | none =>
    if order.isEmpty then [.wildcard]
    else (wildcardItems env order).map (fun (expr, name) => .expr expr (some name))
  | some aliasName =>
    match order.lookup aliasName with
    | some columns =>
      (qualifiedItems env aliasName columns).map (fun (expr, name) => .expr expr (some name))
    | none => [.qualifiedWildcard aliasName]

end

/-- The columns of a table that a wildcard stands for. -/
def visibleColumns (columns : List (String × Option String)) : List String :=
  (columns.filter (·.1 ≠ "_row_id")).map Prod.fst

/-- The names that the columns of a table are written with. -/
def writtenNames (schemas : TableSchemas) (entry : String × List (String × Option String)) :
    List (List String) :=
  (visibleColumns entry.2).map (fun name => if schemas.length > 1 then [entry.1, name] else [name])

/-- A wildcard is replaced by the columns that it stands for. -/
def Covered (scope : Scope) (read : String → Option String) (schemas : TableSchemas) :
    Option String → Prop
  | none =>
    if schemas = [] then scope.visible = scope.refs
    else List.Forall₂ (scope.Resolves read) (schemas.flatMap (writtenNames schemas)) scope.visible
      ∧ ∀ entry ∈ schemas, ∀ other ∈ schemas, visibleColumns entry.2 ≠ [] →
        visibleColumns other.2 ≠ [] → entry = other
  | some aliasName =>
    match schemas.lookup aliasName with
    | none => scope.select read (some aliasName) scope.visible
        = scope.select read (some aliasName) scope.refs
    | some columns => List.Forall₂ (scope.Resolves read)
        ((visibleColumns columns).map (fun name => [aliasName, name]))
        (scope.select read (some aliasName) scope.visible)

/-! ### The model keeps what the rewriting returns -/

section

variable {env : Env}

theorem resolveTable_returns {schemas schemas' : TableSchemas} {name : List String}
    {aliasName : Option String} {relation : TableFactor}
    (h : Returns (resolveTable env schemas name aliasName) (relation, schemas')) :
  schemas' = remember env schemas (.table name aliasName false)
  := by
  unfold resolveTable at h
  unfold remember knownTable
  cases hsystem : (matchedPgCatalog (name.map env.lower)).bind systemColumns with
  | some columns =>
      simp only [hsystem, returns_pure, Prod.mk.injEq] at h
      simp only [hsystem]
      exact h.2.symm
  | none =>
      simp only [hsystem] at h ⊢
      cases hfind : env.find (name.map env.lower) with
      | none =>
          simp only [hfind, returns_pure, Prod.mk.injEq] at h
          exact h.2.symm
      | some found =>
          simp only [hfind, returns_bind, returns_pure, Prod.mk.injEq] at h
          obtain ⟨expanded, -, -, h⟩ := h
          exact h.symm

/-- The tables that are remembered are those that are known. -/
theorem resolveSources_returns {schemas schemas' : TableSchemas} {sources sources' : List Source}
    (h : Returns (resolveSources env schemas sources) (sources', schemas')) :
  schemas' = (sources.map (fun (.mk _ relation _) => relation)).foldl (remember env) schemas
  := by
  induction sources generalizing schemas sources' with
  | nil =>
      simp only [resolveSources, returns_pure, Prod.mk.injEq] at h
      exact h.2.symm
  | cons source sources ih =>
      obtain ⟨join, relation, onExpr⟩ := source
      simp only [resolveSources, returns_bind, returns_pure, Prod.mk.injEq] at h
      obtain ⟨⟨relation', schemas₁⟩, hrelation, onExpr', -, ⟨rest, schemas₂⟩, hrest, -, rfl⟩ := h
      rw [ih hrest, List.map_cons, List.foldl_cons]
      congr 1
      cases relation with
      | table name aliasName args =>
          cases args with
          | false => exact resolveTable_returns hrelation
          | true =>
              simp only [resolveTableSchemas, if_true, returns_pure, Prod.mk.injEq] at hrelation
              exact hrelation.2.symm
      | derived subquery aliasName =>
          simp only [resolveTableSchemas, returns_bind, returns_pure, Prod.mk.injEq] at hrelation
          obtain ⟨_, -, -, hschemas⟩ := hrelation
          exact hschemas.symm
      | other text =>
          simp only [resolveTableSchemas, returns_pure, Prod.mk.injEq] at hrelation
          exact hrelation.2.symm

variable {scope : Scope} {read : String → Option String}

theorem writes_filled {expr : Expr} {parts : List String} (default : Option String)
    (h : Scope.Writes expr parts) :
  Scope.Writes (filled env expr default) parts
  := by
  cases default with
  | none => exact h
  | some default => exact .coalesce expr _ parts h

/-- The rewriting of an expression leaves the column that it shows. -/
theorem writes_rewriteExpr {schemas : TableSchemas} {expr expr' : Expr} {parts : List String}
    (h : Scope.Writes expr parts) (hreturns : Returns (rewriteExpr env schemas expr) expr') :
  Scope.Writes expr' parts
  := by
  induction h generalizing expr' with
  | identifier name =>
      simp only [rewriteExpr, returns_pure] at hreturns
      rw [← hreturns]
      exact writes_filled _ (.identifier name)
  | compoundIdentifier parts =>
      simp only [rewriteExpr, returns_pure] at hreturns
      rw [← hreturns]
      exact writes_filled _ (.compoundIdentifier parts)
  | coalesce expr rest parts _ ih =>
      simp only [rewriteExpr, rewriteExprs, returns_bind, returns_pure] at hreturns
      obtain ⟨operands, ⟨expr₁, hexpr, rest₁, -, rfl⟩, rfl⟩ := hreturns
      exact .coalesce expr₁ rest₁ parts (ih hexpr)

/-- The rewriting of the columns that a wildcard is replaced by leaves what they show. -/
theorem showsAll_fillItems
    (hfill : ∀ schemas expr expr' parts, Scope.Writes expr parts →
      Returns (env.fill schemas expr) expr' → Scope.Writes expr' parts)
    {schemas : TableSchemas} {items : List (Expr × String)} {items' : List SelectItem}
    {refs : List (Nat × Nat)}
    (h : scope.ShowsAll read (items.map (fun (expr, name) => .expr expr (some name))) refs)
    (hreturns : Returns (fillItems env schemas items) items') :
  scope.ShowsAll read items' refs
  := by
  obtain ⟨shown, hshown, rfl⟩ := h
  rw [List.forall₂_map_left_iff] at hshown
  refine ⟨shown, ?_, rfl⟩
  induction hshown generalizing items' with
  | nil =>
      simp only [fillItems, returns_pure] at hreturns
      rw [← hreturns]
      exact List.Forall₂.nil
  | @cons item refs items shown hitem _ ih =>
      obtain ⟨expr, name⟩ := item
      simp only [fillItems, returns_bind, returns_pure] at hreturns
      obtain ⟨expr', hexpr, rest, hrest, rfl⟩ := hreturns
      refine List.Forall₂.cons ?_ (ih hrest)
      cases hitem with
      | expr _ _ parts ref hwrites hresolves =>
          exact .expr expr' (some name) parts ref (hfill _ _ _ _ hwrites hexpr) hresolves

/-- What a wildcard is replaced by shows the same after it is rewritten. -/
theorem showsAll_rewriteItems (dialect : Dialect) (w : World) (session : SessionContext)
    (depth : Nat) {order : TableSchemas} {aliasName : Option String} {items : List SelectItem}
    {refs : List (Nat × Nat)}
    (h : scope.ShowsAll read
      (expandWildcard (dialect.envAt w session depth) order aliasName) refs)
    (hreturns : Returns
      (rewriteItems (dialect.envAt w session depth) order [wildcardItem aliasName]) items) :
  scope.ShowsAll read items refs
  := by
  have hfill : ∀ schemas expr expr' parts, Scope.Writes expr parts →
      Returns ((dialect.envAt w session depth).fill schemas expr) expr' →
        Scope.Writes expr' parts := by
    intro schemas expr expr' parts hwrites hexpr
    cases depth with
    | zero => exact absurd hexpr (not_returns_tooDeep _)
    | succ depth => exact writes_rewriteExpr hwrites hexpr
  cases aliasName with
  | none =>
      simp only [wildcardItem, rewriteItems, returns_bind, returns_pure] at hreturns
      obtain ⟨columns, hcolumns, _, rfl, rfl⟩ := hreturns
      rw [List.append_nil]
      unfold rewriteWildcard at hcolumns
      unfold expandWildcard at h
      split at hcolumns
      · rename_i hempty
        rw [returns_pure] at hcolumns
        rw [if_pos hempty] at h
        rwa [← hcolumns]
      · rename_i hempty
        rw [if_neg hempty] at h
        exact showsAll_fillItems hfill h hcolumns
  | some aliasName =>
      simp only [wildcardItem, rewriteItems, returns_bind, returns_pure] at hreturns
      obtain ⟨columns, hcolumns, _, rfl, rfl⟩ := hreturns
      rw [List.append_nil]
      unfold rewriteQualifiedWildcard at hcolumns
      unfold expandWildcard at h
      dsimp only at h
      cases hlookup : order.lookup aliasName with
      | some found =>
          rw [hlookup] at hcolumns h
          exact showsAll_fillItems hfill h hcolumns
      | none =>
          rw [hlookup] at hcolumns h
          dsimp only at hcolumns h
          rw [returns_pure] at hcolumns
          rwa [← hcolumns]

end

/-! ### When a wildcard keeps its meaning -/

section

variable {env : Env} {scope : Scope} {read : String → Option String}

theorem Scope.refs_nodup (scope : Scope) : scope.refs.Nodup
  := by
  unfold Scope.refs
  rw [List.nodup_flatMap]
  constructor
  · intro i _
    exact List.nodup_range.map fun j j' h => (Prod.mk.inj h).2
  · apply List.nodup_range.imp
    intro i i' hne
    change List.Disjoint _ _
    intro ref href href'
    obtain ⟨j, -, rfl⟩ := List.mem_map.mp href
    obtain ⟨j', -, heq⟩ := List.mem_map.mp href'
    exact hne (Prod.mk.inj heq).1.symm

theorem Scope.Resolves.unique {parts : List String} {ref ref' : Nat × Nat}
    (h : scope.Resolves read parts ref) (h' : scope.Resolves read parts ref') :
  ref = ref'
  := by
  match parts with
  | [] => exact h.elim
  | [name] => exact (h'.2 ref h.1).mp ((h.2 ref h.1).mpr rfl)
  | [aliasName, name] => exact (h'.2 ref h.1).mp ((h.2 ref h.1).mpr rfl)
  | _ :: _ :: _ :: _ => exact h.elim

theorem Scope.Writes.unique {expr : Expr} {parts parts' : List String} (h : Scope.Writes expr parts)
    (h' : Scope.Writes expr parts') :
  parts = parts'
  := by
  induction h with
  | identifier name =>
      cases h'
      rfl
  | compoundIdentifier parts =>
      cases h'
      rfl
  | coalesce expr rest parts _ ih =>
      cases h' with
      | coalesce _ _ _ h' => exact ih h'

/-- An item of a projection that shows the column that it is written with. -/
def IsWritten (item : SelectItem) (parts : List String) : Prop :=
  ∃ expr aliasName, item = .expr expr aliasName ∧ Scope.Writes expr parts

/-- Columns that are written show what their names stand for. -/
theorem showsAll_written {items : List SelectItem} {written : List (List String)}
    {refs : List (Nat × Nat)} (h : List.Forall₂ IsWritten items written) :
  scope.ShowsAll read items refs ↔ List.Forall₂ (scope.Resolves read) written refs
  := by
  induction h generalizing refs with
  | nil =>
      rw [List.forall₂_nil_left_iff]
      constructor
      · rintro ⟨shown, hshown, rfl⟩
        rw [List.forall₂_nil_left_iff.mp hshown]
        rfl
      · rintro rfl
        exact ⟨[], List.Forall₂.nil, rfl⟩
  | @cons item parts items written hitem _ ih =>
      obtain ⟨expr, aliasName, rfl, hwrites⟩ := hitem
      rw [List.forall₂_cons_left_iff]
      constructor
      · rintro ⟨shown, hshown, rfl⟩
        cases hshown with
        | @cons _ first _ rest hfirst hrest =>
            cases hfirst with
            | expr _ _ parts' ref hwrites' hresolves =>
                obtain rfl := hwrites.unique hwrites'
                exact ⟨ref, rest.flatten, hresolves, ih.mp ⟨rest, hrest, rfl⟩, rfl⟩
      · rintro ⟨ref, rest, hresolves, hrest, rfl⟩
        obtain ⟨shown, hshown, rfl⟩ := ih.mpr hrest
        exact ⟨[ref] :: shown,
          List.Forall₂.cons (.expr expr aliasName parts ref hwrites hresolves) hshown, rfl⟩

theorem columnItems_written {column : String → Expr} {written : String → List String}
    (hcolumn : ∀ name, Scope.Writes (column name) (written name))
    (columns : List (String × Option String)) :
  List.Forall₂ IsWritten
    ((columnItems env column columns).map (fun (expr, name) => .expr expr (some name)))
    ((visibleColumns columns).map written)
  := by
  unfold columnItems visibleColumns
  rw [List.map_map, List.map_map, List.forall₂_map_left_iff, List.forall₂_map_right_iff]
  apply List.forall₂_same.mpr
  rintro ⟨name, default⟩ -
  exact ⟨_, _, rfl, writes_filled default (hcolumn name)⟩

theorem wildcardItems_written (schemas : TableSchemas) :
  List.Forall₂ IsWritten
    ((wildcardItems env schemas).map (fun (expr, name) => .expr expr (some name)))
    (schemas.flatMap (writtenNames schemas))
  := by
  unfold wildcardItems
  rw [List.map_flatMap]
  have hentry : ∀ entries : TableSchemas, List.Forall₂ IsWritten
      (entries.flatMap (fun entry => (columnItems env (fun name =>
        if schemas.length > 1 then .compoundIdentifier [entry.1, name] else .identifier name)
          entry.2).map (fun (expr, name) => .expr expr (some name))))
      (entries.flatMap (writtenNames schemas)) := by
    intro entries
    induction entries with
    | nil => exact List.Forall₂.nil
    | cons entry entries ih =>
        rw [List.flatMap_cons, List.flatMap_cons]
        refine List.rel_append (columnItems_written ?_ entry.2) ih
        intro name
        split
        · exact .compoundIdentifier _
        · exact .identifier name
  exact hentry schemas

/-- Parts of which at most one is not empty can be put together in any order. -/
theorem flatMap_eq_of_perm {α β : Type} {f : α → List β} {l l' : List α} (hperm : l.Perm l')
    (hone : ∀ a ∈ l', ∀ b ∈ l', f a ≠ [] → f b ≠ [] → a = b) :
  l.flatMap f = l'.flatMap f
  := by
  induction hperm with
  | nil => rfl
  | cons x _ ih =>
      rw [List.flatMap_cons, List.flatMap_cons, ih]
      intro a ha b hb
      exact hone a (List.mem_cons_of_mem x ha) b (List.mem_cons_of_mem x hb)
  | swap x y l =>
      simp only [List.flatMap_cons]
      by_cases hx : f x = []
      · rw [hx, List.nil_append, List.nil_append]
      · by_cases hy : f y = []
        · rw [hy, List.nil_append, List.nil_append]
        · rw [hone x (by simp) y (by simp) hx hy]
  | trans _ hperm' ih ih' =>
      rw [ih, ih' hone]
      intro a ha b hb
      exact hone a (hperm'.mem_iff.mp ha) b (hperm'.mem_iff.mp hb)

theorem lookup_eq_of_perm {α β : Type} [BEq α] [LawfulBEq α] {l l' : List (α × β)}
    (hperm : l.Perm l') (hnodup : (l.map Prod.fst).Nodup) (a : α) :
  l.lookup a = l'.lookup a
  := by
  induction hperm with
  | nil => rfl
  | cons x _ ih =>
      rw [List.map_cons, List.nodup_cons] at hnodup
      rw [List.lookup_cons, List.lookup_cons, ih hnodup.2]
  | swap x y l =>
      obtain ⟨k, v⟩ := x
      obtain ⟨k', v'⟩ := y
      have hne : k' ≠ k := by
        simp only [List.map_cons, List.nodup_cons, List.mem_cons, not_or] at hnodup
        exact hnodup.1.1
      rw [List.lookup_cons, List.lookup_cons, List.lookup_cons, List.lookup_cons]
      by_cases hk : a = k
      · have hk' : (a == k') = false := beq_eq_false_iff_ne.mpr fun h => hne (h.symm.trans hk)
        rw [hk']
      · rw [beq_eq_false_iff_ne.mpr hk]
  | trans hperm _ ih ih' =>
      rw [ih hnodup, ih' ((hperm.map Prod.fst).nodup_iff.mp hnodup)]

theorem writtenNames_eq_nil (schemas : TableSchemas)
    {entry : String × List (String × Option String)} :
  writtenNames schemas entry = [] ↔ visibleColumns entry.2 = []
  := by
  unfold writtenNames
  exact List.map_eq_nil_iff

theorem writtenNames_perm {schemas order : TableSchemas} (hperm : order.Perm schemas) :
  writtenNames order = writtenNames schemas
  := by
  funext entry
  unfold writtenNames
  rw [hperm.length_eq]

/-- Two tables with columns to show are not both written in every order. -/
theorem one_of_orders {schemas : TableSchemas} {refs : List (Nat × Nat)} (hrefs : refs.Nodup)
    (h : ∀ order : TableSchemas, order.Perm schemas →
      List.Forall₂ (scope.Resolves read) (order.flatMap (writtenNames order)) refs) :
  ∀ entry ∈ schemas, ∀ other ∈ schemas, visibleColumns entry.2 ≠ [] →
    visibleColumns other.2 ≠ [] → entry = other
  := by
  intro entry hentry other hother hshown hshown'
  by_contra hne
  have hperm : (entry :: other :: (schemas.erase entry).erase other).Perm schemas := by
    apply List.Perm.trans _ (List.perm_cons_erase hentry).symm
    apply List.Perm.cons
    apply (List.perm_cons_erase _).symm
    exact (List.mem_erase_of_ne (Ne.symm hne)).mpr hother
  have hfirst := h _ hperm
  have hsecond := h _ ((List.Perm.swap _ _ _).trans hperm)
  rw [writtenNames_perm hperm] at hfirst
  rw [writtenNames_perm ((List.Perm.swap _ _ _).trans hperm)] at hsecond
  -- the first column of each table would come first
  obtain ⟨parts, rest, hparts⟩ :=
    List.exists_cons_of_ne_nil (mt (writtenNames_eq_nil schemas).mp hshown)
  obtain ⟨parts', rest', hparts'⟩ :=
    List.exists_cons_of_ne_nil (mt (writtenNames_eq_nil schemas).mp hshown')
  rw [List.flatMap_cons, List.flatMap_cons, hparts, hparts', List.cons_append] at hfirst
  rw [List.flatMap_cons, hparts', List.cons_append] at hsecond
  obtain ⟨ref, refs', -, hrest, rfl⟩ := List.forall₂_cons_left_iff.mp hfirst
  obtain ⟨ref', refs'', href', -, heq⟩ := List.forall₂_cons_left_iff.mp hsecond
  obtain ⟨rfl, -⟩ := List.cons.inj heq
  obtain ⟨ref', hmem, hresolves⟩ := hrest.exists_mem (List.mem_append_right rest List.mem_cons_self)
  obtain rfl := href'.unique hresolves
  exact (List.nodup_cons.mp hrefs).1 hmem

theorem remember_nodup {schemas : TableSchemas} (h : (schemas.map Prod.fst).Nodup)
    (relation : TableFactor) :
  ((remember env schemas relation).map Prod.fst).Nodup
  := by
  unfold remember
  split
  · rename_i aliasName columns _
    unfold TableSchemas.insert
    rw [List.map_append, List.nodup_append]
    refine ⟨?_, by simp, ?_⟩
    · exact h.sublist (List.Sublist.map _ List.filter_sublist)
    · intro name hname name' hname'
      obtain ⟨entry, hentry, rfl⟩ := List.mem_map.mp hname
      obtain rfl := List.mem_singleton.mp hname'
      simpa using (List.mem_filter.mp hentry).2
  · exact h

theorem knownTables_nodup (sources : List Source) : ((knownTables env sources).map Prod.fst).Nodup
  := by
  have hfoldl : ∀ (relations : List TableFactor) (schemas : TableSchemas),
      (schemas.map Prod.fst).Nodup →
        ((relations.foldl (remember env) schemas).map Prod.fst).Nodup := by
    intro relations
    induction relations with
    | nil => exact fun schemas h => h
    | cons relation relations ih => exact fun schemas h => ih _ (remember_nodup h relation)
  exact hfoldl _ [] List.nodup_nil

theorem showsAll_singleton {item : SelectItem} {refs : List (Nat × Nat)} :
  scope.ShowsAll read [item] refs ↔ scope.Shows read item refs
  := by
  constructor
  · rintro ⟨shown, hshown, rfl⟩
    obtain ⟨refs, rest, h, hrest, rfl⟩ := List.forall₂_cons_left_iff.mp hshown
    rw [List.forall₂_nil_left_iff.mp hrest]
    simpa using h
  · intro h
    exact ⟨[refs], List.Forall₂.cons h List.Forall₂.nil, by simp⟩

theorem showsAll_kept {refs : List (Nat × Nat)} (aliasName : Option String) :
  scope.ShowsAll read [wildcardItem aliasName] refs
    ↔ refs = scope.select read aliasName scope.refs
  := by
  rw [showsAll_singleton]
  cases aliasName with
  | none =>
      constructor
      · rintro ⟨⟩
        rfl
      · rintro rfl
        exact .wildcard
  | some aliasName =>
      constructor
      · rintro ⟨⟩
        rfl
      · rintro rfl
        exact .qualifiedWildcard aliasName

variable (env) in
/-- A wildcard is replaced by what it stands for in whatever order the map has the tables. -/
theorem showsAll_expandWildcard_iff {schemas : TableSchemas}
    (hnodup : (schemas.map Prod.fst).Nodup) (aliasName : Option String) :
  (∀ order : TableSchemas, order.Perm schemas →
      scope.ShowsAll read (expandWildcard env order aliasName)
        (scope.select read aliasName scope.visible))
    ↔ Covered scope read schemas aliasName
  := by
  cases aliasName with
  | none =>
      unfold Covered Scope.select
      dsimp only
      split
      · rename_i hnil
        subst hnil
        constructor
        · intro h
          exact (showsAll_kept none).mp (h [] List.Perm.nil)
        · intro h order hperm
          rw [List.perm_nil.mp hperm]
          exact (showsAll_kept none).mpr h
      · rename_i hne
        have hexpand : ∀ order : TableSchemas, order.Perm schemas →
            (scope.ShowsAll read (expandWildcard env order none) scope.visible
              ↔ List.Forall₂ (scope.Resolves read) (order.flatMap (writtenNames order))
                scope.visible) := by
          intro order hperm
          have hempty : order.isEmpty = false := by
            rw [List.isEmpty_eq_false_iff]
            rintro rfl
            exact hne (List.nil_perm.mp hperm)
          unfold expandWildcard
          dsimp only
          rw [hempty]
          exact showsAll_written (wildcardItems_written order)
        constructor
        · intro h
          refine ⟨(hexpand schemas (List.Perm.refl _)).mp (h schemas (List.Perm.refl _)), ?_⟩
          apply one_of_orders (scope.refs_nodup.filter _)
          intro order hperm
          exact (hexpand order hperm).mp (h order hperm)
        · rintro ⟨h, hone⟩ order hperm
          rw [hexpand order hperm, writtenNames_perm hperm, flatMap_eq_of_perm hperm]
          · exact h
          · intro entry hentry other hother hshown hshown'
            exact hone entry hentry other hother (mt (writtenNames_eq_nil schemas).mpr hshown)
              (mt (writtenNames_eq_nil schemas).mpr hshown')
  | some aliasName =>
      have hexpand : ∀ order : TableSchemas, order.Perm schemas →
          expandWildcard env order (some aliasName) = expandWildcard env schemas (some aliasName) := by
        intro order hperm
        unfold expandWildcard
        dsimp only
        rw [lookup_eq_of_perm hperm.symm hnodup]
      have hshows : (∀ order : TableSchemas, order.Perm schemas →
          scope.ShowsAll read (expandWildcard env order (some aliasName))
            (scope.select read (some aliasName) scope.visible))
          ↔ scope.ShowsAll read (expandWildcard env schemas (some aliasName))
            (scope.select read (some aliasName) scope.visible) := by
        constructor
        · exact fun h => h schemas (List.Perm.refl _)
        · intro h order hperm
          rwa [hexpand order hperm]
      rw [hshows]
      unfold Covered expandWildcard
      dsimp only
      cases schemas.lookup aliasName with
      | none => exact showsAll_kept (some aliasName)
      | some columns =>
          exact showsAll_written
            (columnItems_written (fun name => .compoundIdentifier [aliasName, name]) columns)

/-- A wildcard keeps its meaning, in whatever order the map has the tables, if and only if nothing
is known and no column is hidden, or only one known table has columns to show and their names,
written without quotes, stand for all columns that the wildcard stands for. -/
theorem showsAll_wildcard_iff (dialect : Dialect) (w : World) (session : SessionContext)
    (depth : Nat) (sources : List Source) (scope : Scope) (read : String → Option String)
    (aliasName : Option String) :
  (∀ order : TableSchemas,
      order.Perm (knownTables (dialect.envAt w session depth) sources) →
        scope.ShowsAll read (expandWildcard (dialect.envAt w session depth) order aliasName)
            (scope.select read aliasName scope.visible)
          ∧ ∀ items, Returns
              (rewriteItems (dialect.envAt w session depth) order [wildcardItem aliasName]) items →
            scope.ShowsAll read items (scope.select read aliasName scope.visible))
    ↔ Covered scope read (knownTables (dialect.envAt w session depth) sources) aliasName
  := by
  rw [← showsAll_expandWildcard_iff (dialect.envAt w session depth) (knownTables_nodup sources)]
  constructor
  · intro h order hperm
    exact (h order hperm).1
  · intro h order hperm
    exact ⟨h order hperm, fun items hreturns =>
      showsAll_rewriteItems dialect w session depth (h order hperm) hreturns⟩

end

/-- `FROM pg_attrdef, pg_description` -/
def twoSystemTables : List Source :=
  [.mk "" (.table ["pg_attrdef"] none false) none, .mk "" (.table ["pg_description"] none false) none]

def twoSystemScope : Scope :=
  [("pg_attrdef", ["oid", "adrelid", "adnum", "adbin"]),
    ("pg_description", ["objoid", "classoid", "objsubid", "description"])]

/-- The map may have the second of two tables first, and then its columns come first. -/
theorem twoSystemTables_reordered :
  ¬ ∀ order : TableSchemas,
    order.Perm (knownTables
        ((Dialect.mk (fun _ => .ok []) asciiLower).envAt World.bootstrap {} 0) twoSystemTables) →
      twoSystemScope.ShowsAll some
        (expandWildcard ((Dialect.mk (fun _ => .ok []) asciiLower).envAt World.bootstrap {} 0)
          order none)
        (twoSystemScope.select some none twoSystemScope.visible)
  := by
  intro h
  have hcovered := (showsAll_expandWildcard_iff _ (knownTables_nodup twoSystemTables) none).mp h
  have hknown : knownTables
      ((Dialect.mk (fun _ => .ok []) asciiLower).envAt World.bootstrap {} 0) twoSystemTables
        = twoSystemScope.map (fun entry => (entry.1, entry.2.map (·, none))) := rfl
  rw [hknown] at hcovered
  unfold Covered at hcovered
  have hone := hcovered.2 _ List.mem_cons_self _ (List.mem_cons_of_mem _ List.mem_cons_self)
    (by decide) (by decide)
  exact absurd hone (by decide)

/-- The wildcard of a single table keeps its meaning when the names of its columns are read as they
are. -/
theorem covered_single {read : String → Option String} {name aliasName : String}
    {columns : List (String × Option String)} (hnodup : (columns.map Prod.fst).Nodup)
    (hread : ∀ column ∈ visibleColumns columns, read column = some column) :
  Covered [(name, columns.map Prod.fst)] read [(aliasName, columns)] none
  := by
  have hrefs : Scope.refs [(name, columns.map Prod.fst)]
      = (List.range columns.length).map (fun j => (0, j)) := by
    simp [Scope.refs]
  have hall : List.Forall₂ (fun column ref => ref ∈ Scope.refs [(name, columns.map Prod.fst)]
        ∧ Scope.columnName [(name, columns.map Prod.fst)] ref = some column)
      (columns.map Prod.fst) (Scope.refs [(name, columns.map Prod.fst)]) := by
    rw [hrefs, List.forall₂_map_right_iff, List.forall₂_iff_get]
    refine ⟨by simp, ?_⟩
    intro i h₁ h₂
    rw [List.length_map] at h₁
    refine ⟨by simpa using h₁, ?_⟩
    simp [Scope.columnName, h₁]
  have hvisible : List.Forall₂ (fun column ref =>
        ref ∈ Scope.refs [(name, columns.map Prod.fst)]
          ∧ Scope.columnName [(name, columns.map Prod.fst)] ref = some column)
      ((columns.map Prod.fst).filter (fun column => column ≠ "_row_id"))
      (Scope.visible [(name, columns.map Prod.fst)]) := by
    refine List.rel_filter ?_ hall
    rintro column ref ⟨-, hcolumn⟩
    simp [hcolumn]
  unfold Covered
  dsimp only
  rw [if_neg (List.cons_ne_nil _ _)]
  constructor
  · have hwritten : [(aliasName, columns)].flatMap (writtenNames [(aliasName, columns)])
        = ((columns.map Prod.fst).filter (fun column => column ≠ "_row_id")).map ([·]) := by
      simp [writtenNames, visibleColumns, List.filter_map, Function.comp_def]
    rw [hwritten, List.forall₂_map_left_iff, List.forall₂_iff_zip]
    refine ⟨hvisible.length_eq, ?_⟩
    intro column ref hmem
    obtain ⟨href, hcolumn⟩ := (List.forall₂_iff_zip.mp hvisible).2 hmem
    have hshown : column ∈ visibleColumns columns := by
      unfold visibleColumns
      have := (List.of_mem_zip hmem).1
      rwa [List.filter_map] at this
    refine ⟨href, fun other hother => ?_⟩
    rw [hread column hshown]
    constructor
    · intro h
      rw [hrefs] at href hother
      obtain ⟨i, hi, rfl⟩ := List.mem_map.mp href
      obtain ⟨j, -, rfl⟩ := List.mem_map.mp hother
      congr 1
      have hij : (columns.map Prod.fst)[j]? = (columns.map Prod.fst)[i]? := h.trans hcolumn.symm
      rw [List.mem_range] at hi
      exact ((List.getElem?_inj (by simpa using hi) hnodup).mp hij.symm).symm
    · rintro rfl
      exact hcolumn
  · intro entry hentry other hother _ _
    rw [List.mem_singleton.mp hentry, List.mem_singleton.mp hother]

end Rewriter
