import AnalyticsDB.Lib.Elementwise
import AnalyticsDB.Lib.Fresh
import AnalyticsDB.Lib.Text
import Std.Data.String.ToNat

/-!
# The names of the columns of a query

The rewriting of a query goes through the items of its projection.  It rewrites the expression of an
item, keeps the name of an expression that it changed when it can, and gives an item another name
when its name was seen before.  What it compares are recorded names: the canonical name of an
expression is in lower case, and an alias is taken as it is written.  These are not the names that
SQL compares, which has unquoted names in lower case and quoted ones as they are written.
-/

namespace Projection

/-- An identifier, and whether it is written between quotes. -/
structure Ident where
  value : String
  quoted : Bool
  deriving DecidableEq, Repr

/-- An identifier as `Ident::new` makes it. -/
def Ident.new (value : String) : Ident := ⟨value, false⟩

/-- An expression: a name, or another one with its text. -/
inductive Expr where
  | identifier (ident : Ident)
  | compoundIdentifier (parts : List Ident)
  | other (text : String)
  deriving DecidableEq, Repr

inductive SelectItem where
  | unnamedExpr (expr : Expr)
  | exprWithAlias (expr : Expr) (name : Ident)
  | wildcard (text : String)
  deriving DecidableEq, Repr

/-- The first character may start a name without quotes. -/
def isNameStart (c : Char) : Bool := c.isAlpha || c == '_'

def isSafeBareIdentifier (name : String) : Bool :=
  match name.toList with
  | [] => false
  | first :: chars => isNameStart first && chars.all (fun c => c.isAlphanum || c == '_')

/-- The base of the aliases made from a name: its letters and digits, and a start that a name
without quotes may have. -/
def safeBase (base : String) : String :=
  let safe := base.toList.map (fun c => if c.isAlphanum then c else '_')
  if safe.head?.any isNameStart then String.ofList safe else "col_" ++ String.ofList safe

/-- The aliases that are tried one after another. -/
def aliasCandidate (base : String) (i : ℕ) : String := safeBase base ++ "_" ++ (i + 1).repr

theorem aliasCandidate_injective (base : String) :
  Function.Injective (aliasCandidate base)
  := by
  intro i j h
  have hlist := congrArg String.toList h
  simp only [aliasCandidate, String.toList_append] at hlist
  have hnumber := Nat.repr_injective (String.toList_inj.mp (List.append_cancel_left hlist))
  exact Nat.succ_injective hnumber

/-- The first alias that was not seen. -/
def makeUniqueAlias (base : String) (seen : List String) : String :=
  aliasCandidate base (Fresh.first (aliasCandidate_injective base) seen)

/-- The alias that is made was not seen. -/
theorem makeUniqueAlias_notMem (base : String) (seen : List String) :
  makeUniqueAlias base seen ∉ seen
  := Fresh.first_notMem (aliasCandidate_injective base) seen

example : makeUniqueAlias "max(a)" ["max(a)", "max_a__1"] = "max_a__2"
    ∧ makeUniqueAlias "1" [] = "col_1_1" ∧ makeUniqueAlias "" ["a"] = "col__1" := by
  decide +kernel

section

-- `str::to_lowercase`, the text of an identifier between quotes, and the rewriting of expressions
variable (lower quote : String → String) (rewriteExpr : Expr → Except String Expr)

def Ident.text (ident : Ident) : String := if ident.quoted then quote ident.value else ident.value

def Expr.text : Expr → String
  | .identifier ident => ident.text quote
  | .compoundIdentifier parts => ".".intercalate (parts.map (Ident.text quote))
  | .other text => text

def getCanonicalName (expr : Expr) : String :=
  lower <|
    match expr with
    | .identifier ident => ident.value
    | .compoundIdentifier parts => (parts.getLast?.map (Ident.text quote)).getD (expr.text quote)
    | .other text => text

/-- Rewrite the expression of an item, and keep the name of an expression without alias that was
changed, when it needs no quotes. -/
def rewriteItem : SelectItem → Except String SelectItem
  | .unnamedExpr expr => do
    let rewritten ← rewriteExpr expr
    return if rewritten.text quote ≠ expr.text quote
          ∧ isSafeBareIdentifier (getCanonicalName lower quote expr) = true then
        .exprWithAlias rewritten (.new (getCanonicalName lower quote expr))
      else .unnamedExpr rewritten
  | .exprWithAlias expr name => do
    let rewritten ← rewriteExpr expr
    return .exprWithAlias rewritten name
  | .wildcard text => .ok (.wildcard text)

/-- The name of an item that is recorded. -/
def currentName : SelectItem → Option String
  | .unnamedExpr expr => some (getCanonicalName lower quote expr)
  | .exprWithAlias _ name => some name.value
  | .wildcard _ => none

/-- An item under another name. -/
def SelectItem.withAlias (name : String) : SelectItem → SelectItem
  | .unnamedExpr expr => .exprWithAlias expr (.new name)
  | .exprWithAlias expr _ => .exprWithAlias expr (.new name)
  | .wildcard text => .wildcard text

/-- Give an item another name when its name was seen, and record its name. -/
def nameItem (seen : List String) (item : SelectItem) : SelectItem × List String :=
  match currentName lower quote item with
  | none => (item, seen)
  | some name =>
    if name ∈ seen then
      (item.withAlias (makeUniqueAlias name seen), makeUniqueAlias name seen :: seen)
    else (item, name :: seen)

/-- The items of a projection after the rewriting, given the names seen before them. -/
def rewriteProjection : List String → List SelectItem → Except String (List SelectItem)
  | _, [] => .ok []
  | seen, item :: items => do
    let item ← rewriteItem lower quote rewriteExpr item
    let (item, seen) := nameItem lower quote seen item
    let items ← rewriteProjection seen items
    return item :: items

/-! ### Names in SQL -/

/-- An identifier as SQL compares it. -/
def Ident.sqlName (ident : Ident) : String :=
  if ident.quoted then ident.value else lower ident.value

/-- The name SQL gives an expression without alias; that of other expressions is their text. -/
def Expr.sqlName : Expr → String
  | .identifier ident => ident.sqlName lower
  | .compoundIdentifier parts => (parts.getLast?.map (Ident.sqlName lower)).getD (lower "")
  | .other text => lower text

def SelectItem.sqlName : SelectItem → String
  | .unnamedExpr expr => expr.sqlName lower
  | .exprWithAlias _ name => name.sqlName lower
  | .wildcard text => text

/-- The expression of an item, if it has one. -/
def SelectItem.expr? : SelectItem → Option Expr
  | .unnamedExpr expr | .exprWithAlias expr _ => some expr
  | .wildcard _ => none

/-- The recorded name of each item beside its name in SQL. -/
def spellings (items : List SelectItem) : List (String × String) :=
  items.filterMap (fun item => (currentName lower quote item).map (·, item.sqlName lower))

/-- A recorded name that another item has, too, or that may be made as an alias. -/
def Contested (names : List (String × String)) (name : String) : Prop :=
  2 ≤ (names.map Prod.fst).count name
    ∨ ∃ base ∈ names.map Prod.fst, ∃ i < names.length, name = aliasCandidate base i

instance (names : List (String × String)) (name : String) : Decidable (Contested names name) :=
  inferInstanceAs (Decidable (_ ∨ _))

/-- The names in play in both spellings: those of the items, and the aliases that may be made for
the contested ones. -/
def namesInPlay (names : List (String × String)) : List (String × String) :=
  names ++ (names.filter (fun name => Contested names name.1)).flatMap (fun name =>
    (List.range names.length).map (fun i =>
      (aliasCandidate name.1 i, lower (aliasCandidate name.1 i))))

/-- The name of an expression without alias stays when the expression is rewritten: it is kept as an
alias, or the rewritten expression has it. -/
def KeepsName (expr rewritten : Expr) : Prop :=
  if rewritten.text quote ≠ expr.text quote
      ∧ isSafeBareIdentifier (getCanonicalName lower quote expr) = true then
    lower (getCanonicalName lower quote expr) = expr.sqlName lower
  else rewritten.sqlName lower = expr.sqlName lower

instance (expr rewritten : Expr) : Decidable (KeepsName lower quote expr rewritten) :=
  inferInstanceAs (Decidable (if _ ∧ _ then _ = _ else _ = _))

/-- The rewriting of the expressions keeps their names, and among the names in play, two are
recorded as the same exactly when SQL takes them for the same. -/
structure NamesApart (items rewritten : List SelectItem) : Prop where
  kept : ∀ expr rewritten, SelectItem.unnamedExpr expr ∈ items → rewriteExpr expr = .ok rewritten →
    KeepsName lower quote expr rewritten
  apart : Fresh.OneToOne (namesInPlay lower (spellings lower quote rewritten))

/-- An item has another name only when its name is given to an item before it. -/
def ChangesOnlyClashes : List String → List String → List String → Prop
  | given, name :: names, newName :: newNames =>
    (newName ≠ name → name ∈ given) ∧ ChangesOnlyClashes (newName :: given) names newNames
  | _, _, _ => True

end

/-! ### The loop -/

section

variable {lower quote : String → String} {rewriteExpr : Expr → Except String Expr}

/-- The items under the names the loop gives them. -/
def nameItems (lower quote : String → String) : List String → List SelectItem → List SelectItem
  | _, [] => []
  | seen, item :: items =>
    (nameItem lower quote seen item).1
      :: nameItems lower quote (nameItem lower quote seen item).2 items

/-- The names do not bear on the rewriting of the expressions. -/
theorem rewriteProjection_eq (seen : List String) (items : List SelectItem) :
  rewriteProjection lower quote rewriteExpr seen items
    = (items.mapM (rewriteItem lower quote rewriteExpr)).map (nameItems lower quote seen)
  := by
  induction items generalizing seen with
  | nil => rfl
  | cons item items ih =>
      rw [rewriteProjection, List.mapM_cons]
      cases rewriteItem lower quote rewriteExpr item with
      | error e => rfl
      | ok item' =>
          simp only [bind, Except.bind, ih]
          cases items.mapM (rewriteItem lower quote rewriteExpr) with
          | error e => rfl
          | ok items' => rfl

theorem makeUniqueAlias_eq (base : String) (seen : List String) :
  ∃ i ≤ seen.length, makeUniqueAlias base seen = aliasCandidate base i
  := ⟨_, Fresh.first_le_length (aliasCandidate_injective base) seen, rfl⟩

theorem sqlName_withAlias {item : SelectItem} (h : (currentName lower quote item).isSome = true)
    (name : String) :
  (item.withAlias name).sqlName lower = lower name
  := by
  cases item with
  | wildcard => cases h
  | unnamedExpr => rfl
  | exprWithAlias => rfl

/-- The aliases that may be made for a contested name are in play. -/
theorem aliasCandidate_inPlay {names : List (String × String)} {name sql : String} {i : ℕ}
    (hname : (name, sql) ∈ names) (hcontested : Contested names name) (hi : i < names.length) :
  (aliasCandidate name i, lower (aliasCandidate name i)) ∈ namesInPlay lower names
  := by
  apply List.mem_append_right
  rw [List.mem_flatMap]
  refine ⟨(name, sql), ?_, ?_⟩
  · rw [List.mem_filter]
    exact ⟨hname, decide_eq_true hcontested⟩
  · rw [List.mem_map]
    exact ⟨i, List.mem_range.mpr hi, rfl⟩

/-- What the loop has recorded: names in play, no two the same, each that of an item or an alias
made for one. -/
structure Recorded (lower : String → String) (names before done : List (String × String)) :
    Prop where
  length : done.length = before.length
  inPlay : ∀ p ∈ done, p ∈ namesInPlay lower names
  nodup : (done.map Prod.fst).Nodup
  made : ∀ p ∈ done, p.1 ∈ before.map Prod.fst
    ∨ ∃ base ∈ before.map Prod.fst, ∃ i < names.length, p.1 = aliasCandidate base i

/-- A name that was seen is contested. -/
theorem Recorded.contested {names before done after : List (String × String)}
    {name sql : String} (h : Recorded lower names before done)
    (hnames : names = before ++ (name, sql) :: after) (hseen : name ∈ done.map Prod.fst) :
  Contested names name
  := by
  obtain ⟨p, hp, heq⟩ := List.mem_map.mp hseen
  obtain hbefore | ⟨base, hbase, i, hi, hmade⟩ := h.made p hp
  · left
    rw [heq] at hbefore
    rw [hnames, List.map_append, List.map_cons, List.count_append, List.count_cons_self]
    have hpos := List.count_pos_iff.mpr hbefore
    omega
  · right
    refine ⟨base, ?_, i, hi, heq ▸ hmade⟩
    rw [hnames, List.map_append]
    exact List.mem_append_left _ hbase

/-- One turn of the loop: the name given is in play and was not recorded, and it is another one only
when the name of the item was given before. -/
theorem Recorded.nameItem {names before done after : List (String × String)} {item : SelectItem}
    {name : String} (h : Recorded lower names before done)
    (hapart : Fresh.OneToOne (namesInPlay lower names))
    (hcurrent : currentName lower quote item = some name)
    (hnames : names = before ++ (name, item.sqlName lower) :: after) :
  ∃ recorded, Recorded lower names (before ++ [(name, item.sqlName lower)]) (recorded :: done)
    ∧ (Projection.nameItem lower quote (done.map Prod.fst) item).2
      = (recorded :: done).map Prod.fst
    ∧ (Projection.nameItem lower quote (done.map Prod.fst) item).1.sqlName lower = recorded.2
    ∧ (recorded.2 ≠ item.sqlName lower → item.sqlName lower ∈ done.map Prod.snd)
  := by
  have hmem : (name, item.sqlName lower) ∈ names := by
    rw [hnames]
    simp
  have hplay : (name, item.sqlName lower) ∈ namesInPlay lower names := List.mem_append_left _ hmem
  have hlength : before.length < names.length := by
    rw [hnames, List.length_append, List.length_cons]
    omega
  have hmade : ∀ p ∈ done, p.1 ∈ (before ++ [(name, item.sqlName lower)]).map Prod.fst
      ∨ ∃ base ∈ (before ++ [(name, item.sqlName lower)]).map Prod.fst,
          ∃ i < names.length, p.1 = aliasCandidate base i := by
    intro p hp
    rw [List.map_append]
    obtain hbefore | ⟨base, hbase, hrest⟩ := h.made p hp
    · exact .inl (List.mem_append_left _ hbefore)
    · exact .inr ⟨base, List.mem_append_left _ hbase, hrest⟩
  have hsome : (currentName lower quote item).isSome = true := by
    rw [hcurrent]
    rfl
  have hself : name ∈ (before ++ [(name, item.sqlName lower)]).map Prod.fst := by simp
  rw [Projection.nameItem, hcurrent]
  dsimp only
  by_cases hseen : name ∈ done.map Prod.fst
  · rw [if_pos hseen]
    obtain ⟨i, hi, hnew⟩ := makeUniqueAlias_eq name (done.map Prod.fst)
    rw [List.length_map, h.length] at hi
    have hnotMem := makeUniqueAlias_notMem name (done.map Prod.fst)
    rw [hnew] at hnotMem ⊢
    refine ⟨(aliasCandidate name i, lower (aliasCandidate name i)), ⟨?_, ?_, ?_, ?_⟩, rfl, ?_, ?_⟩
    · rw [List.length_cons, h.length, List.length_append]
      rfl
    · rw [List.forall_mem_cons]
      exact ⟨aliasCandidate_inPlay hmem (h.contested hnames hseen) (by omega), h.inPlay⟩
    · exact List.nodup_cons.mpr ⟨hnotMem, h.nodup⟩
    · rw [List.forall_mem_cons]
      exact ⟨.inr ⟨name, hself, i, by omega, rfl⟩, hmade⟩
    · exact sqlName_withAlias hsome _
    · intro _
      obtain ⟨p, hp, heq⟩ := List.mem_map.mp hseen
      have hsame : p.2 = item.sqlName lower := (hapart p (h.inPlay p hp) _ hplay).mp heq
      rw [← hsame]
      exact List.mem_map_of_mem hp
  · rw [if_neg hseen]
    refine ⟨(name, item.sqlName lower), ⟨?_, ?_, ?_, ?_⟩, rfl, rfl, fun hne => absurd rfl hne⟩
    · rw [List.length_cons, h.length, List.length_append]
      rfl
    · rw [List.forall_mem_cons]
      exact ⟨hplay, h.inPlay⟩
    · exact List.nodup_cons.mpr ⟨hseen, h.nodup⟩
    · rw [List.forall_mem_cons]
      exact ⟨.inl hself, hmade⟩

/-- The whole loop. -/
theorem Recorded.nameItems {names before done : List (String × String)} {items : List SelectItem}
    (h : Recorded lower names before done)
    (hapart : Fresh.OneToOne (namesInPlay lower names))
    (hitems : ∀ item ∈ items, (currentName lower quote item).isSome = true)
    (hnames : names = before ++ spellings lower quote items) :
  ∃ all : List (String × String), (∀ p ∈ all, p ∈ namesInPlay lower names)
    ∧ (all.map Prod.fst).Nodup
    ∧ all.map Prod.snd
      = ((Projection.nameItems lower quote (done.map Prod.fst) items).map
          (SelectItem.sqlName lower)).reverse ++ done.map Prod.snd
    ∧ ChangesOnlyClashes (done.map Prod.snd) (items.map (SelectItem.sqlName lower))
        ((Projection.nameItems lower quote (done.map Prod.fst) items).map (SelectItem.sqlName lower))
  := by
  induction items generalizing before done with
  | nil => exact ⟨done, h.inPlay, h.nodup, rfl, trivial⟩
  | cons item items ih =>
      rw [List.forall_mem_cons] at hitems
      obtain ⟨name, hcurrent⟩ := Option.isSome_iff_exists.mp hitems.1
      rw [spellings, List.filterMap_cons, hcurrent] at hnames
      obtain ⟨recorded, hrecorded, hseen, hsql, hclash⟩ := h.nameItem hapart hcurrent hnames
      obtain ⟨all, hplay, hnodup, hall, hchanges⟩ := ih hrecorded hitems.2
        (by rw [hnames, List.append_assoc]; rfl)
      rw [Projection.nameItems, hseen]
      refine ⟨all, hplay, hnodup, ?_, ?_⟩
      · simp only [List.map_cons, List.reverse_cons, List.append_assoc, hsql] at hall ⊢
        exact hall
      · simp only [List.map_cons, hsql] at hchanges ⊢
        exact ⟨hclash, hchanges⟩

/-- An item keeps its expression. -/
theorem expr?_nameItem (seen : List String) (item : SelectItem) :
  (nameItem lower quote seen item).1.expr? = item.expr?
  := by
  rw [nameItem]
  split
  · rfl
  split
  · cases item with
    | unnamedExpr => rfl
    | exprWithAlias => rfl
    | wildcard => rfl
  · rfl

/-- No item is lost or moved by the loop. -/
theorem expr?_nameItems (seen : List String) (items : List SelectItem) :
  (nameItems lower quote seen items).map SelectItem.expr? = items.map SelectItem.expr?
  := by
  induction items generalizing seen with
  | nil => rfl
  | cons item items ih => rw [nameItems, List.map_cons, List.map_cons, expr?_nameItem, ih]

theorem currentName_isSome (item : SelectItem) :
  (currentName lower quote item).isSome = item.expr?.isSome
  := by
  cases item with
  | unnamedExpr => rfl
  | exprWithAlias => rfl
  | wildcard => rfl

/-- What the rewriting does with an item that has an expression. -/
theorem rewriteItem_eq_ok {item rewritten : SelectItem}
    (h : rewriteItem lower quote rewriteExpr item = .ok rewritten)
    (hnamed : item.expr?.isSome = true)
    (hkept : ∀ expr expr', item = .unnamedExpr expr → rewriteExpr expr = .ok expr' →
      KeepsName lower quote expr expr') :
  (∃ expr expr', item.expr? = some expr ∧ rewriteExpr expr = .ok expr'
      ∧ rewritten.expr? = some expr')
    ∧ rewritten.sqlName lower = item.sqlName lower
  := by
  cases item with
  | wildcard => cases hnamed
  | exprWithAlias expr name =>
      rw [rewriteItem] at h
      cases hexpr : rewriteExpr expr with
      | error e =>
          rw [hexpr] at h
          cases h
      | ok expr' =>
          rw [hexpr] at h
          cases h
          exact ⟨⟨expr, expr', rfl, hexpr, rfl⟩, rfl⟩
  | unnamedExpr expr =>
      rw [rewriteItem] at h
      cases hexpr : rewriteExpr expr with
      | error e =>
          rw [hexpr] at h
          cases h
      | ok expr' =>
          have hkeeps := hkept expr expr' rfl hexpr
          have hitem : (if expr'.text quote ≠ expr.text quote
                ∧ isSafeBareIdentifier (getCanonicalName lower quote expr) = true then
              SelectItem.exprWithAlias expr' (.new (getCanonicalName lower quote expr))
            else .unnamedExpr expr') = rewritten := by
            rw [hexpr] at h
            exact Except.ok.inj h
          rw [KeepsName] at hkeeps
          split at hkeeps
          case isTrue hchanged =>
            rw [if_pos hchanged] at hitem
            subst hitem
            exact ⟨⟨expr, expr', rfl, hexpr, rfl⟩, hkeeps⟩
          case isFalse hchanged =>
            rw [if_neg hchanged] at hitem
            subst hitem
            exact ⟨⟨expr, expr', rfl, hexpr, rfl⟩, hkeeps⟩

end

/-- When the rewriting keeps the names of the expressions and the two spellings of the names in play
go together, the names after the loop are different in SQL, only an item whose name is already given
has another one, and the items have their expressions, rewritten, in their order.  The alias that is
made is never one that was seen. -/
theorem rewriteProjection_names {lower quote : String → String}
    {rewriteExpr : Expr → Except String Expr} {items rewritten : List SelectItem}
    (hrewrite : items.mapM (rewriteItem lower quote rewriteExpr) = .ok rewritten)
    (hnamed : ∀ item ∈ items, item.expr?.isSome = true)
    (hapart : NamesApart lower quote rewriteExpr items rewritten) :
  ∃ renamed, rewriteProjection lower quote rewriteExpr [] items = .ok renamed
    ∧ List.Forall₂ (fun item new => ∃ expr expr', item.expr? = some expr
        ∧ rewriteExpr expr = .ok expr' ∧ new.expr? = some expr') items renamed
    ∧ (renamed.map (SelectItem.sqlName lower)).Nodup
    ∧ ChangesOnlyClashes [] (items.map (SelectItem.sqlName lower))
        (renamed.map (SelectItem.sqlName lower))
    ∧ ∀ base seen, makeUniqueAlias base seen ∉ seen
  := by
  have hitems : List.Forall₂ (fun item item' => (∃ expr expr', item.expr? = some expr
        ∧ rewriteExpr expr = .ok expr' ∧ item'.expr? = some expr')
      ∧ item'.sqlName lower = item.sqlName lower) items rewritten := by
    have hmem := (List.forall₂_and_left items rewritten).mpr
      ⟨fun _ h => h, List.mapM_ok_iff.mp hrewrite⟩
    apply hmem.imp
    rintro item item' ⟨hitem, hok⟩
    apply rewriteItem_eq_ok hok (hnamed item hitem)
    rintro expr expr' rfl hexpr
    exact hapart.kept expr expr' hitem hexpr
  have hsome : ∀ item ∈ rewritten, (currentName lower quote item).isSome = true := by
    intro item hitem
    obtain ⟨old, _, ⟨expr, expr', -, -, hnew⟩, -⟩ := hitems.flip.exists_mem hitem
    rw [currentName_isSome, hnew]
    rfl
  have hsql : rewritten.map (SelectItem.sqlName lower) = items.map (SelectItem.sqlName lower) := by
    have heach : List.Forall₂ (· = ·) (rewritten.map (SelectItem.sqlName lower))
        (items.map (SelectItem.sqlName lower)) := by
      rw [List.forall₂_map_left_iff, List.forall₂_map_right_iff]
      exact hitems.flip.imp (fun _ _ h => h.2)
    rw [List.forall₂_eq_eq_eq] at heach
    exact heach
  have hstart : Recorded lower (spellings lower quote rewritten) [] [] :=
    ⟨rfl, fun p hp => (List.not_mem_nil hp).elim, List.nodup_nil,
      fun p hp => (List.not_mem_nil hp).elim⟩
  obtain ⟨all, hplay, hnodup, hall, hchanges⟩ := hstart.nameItems hapart.apart hsome rfl
  refine ⟨nameItems lower quote [] rewritten, ?_, ?_, ?_, ?_, makeUniqueAlias_notMem⟩
  · rw [rewriteProjection_eq, hrewrite]
    rfl
  · have hexprs : List.Forall₂ (fun item expr? => ∃ expr expr', item.expr? = some expr
        ∧ rewriteExpr expr = .ok expr' ∧ expr? = some expr') items
          (rewritten.map SelectItem.expr?) := by
      rw [List.forall₂_map_right_iff]
      exact hitems.imp (fun _ _ h => h.1)
    rw [← expr?_nameItems [], List.forall₂_map_right_iff] at hexprs
    exact hexprs
  · have hnames := hapart.apart.nodup hplay hnodup
    rw [hall.trans (List.append_nil _)] at hnames
    exact List.nodup_reverse.mp hnames
  · rw [← hsql]
    exact hchanges

/-- `SELECT a, t.A, b AS Total, CURRENT_USER`. -/
def sampleItems : List SelectItem :=
  [.unnamedExpr (.identifier (.new "a")),
    .unnamedExpr (.compoundIdentifier [.new "t", .new "A"]),
    .exprWithAlias (.identifier (.new "b")) (.new "Total"),
    .unnamedExpr (.other "CURRENT_USER")]

/-- The rewriting of a keyword to its value. -/
def sampleRewrite : Expr → Except String Expr
  | .other "CURRENT_USER" => .ok (.other "'admin'")
  | expr => .ok expr

def quoted (value : String) : String := "\"" ++ value ++ "\""

theorem rewriteProjection_names_sample :
  ∃ renamed, rewriteProjection asciiLower quoted sampleRewrite [] sampleItems = .ok renamed
    ∧ (renamed.map (SelectItem.sqlName asciiLower)).Nodup
  := by
  have hrewrite : sampleItems.mapM (rewriteItem asciiLower quoted sampleRewrite)
      = .ok [.unnamedExpr (.identifier (.new "a")),
        .unnamedExpr (.compoundIdentifier [.new "t", .new "A"]),
        .exprWithAlias (.identifier (.new "b")) (.new "Total"),
        .exprWithAlias (.other "'admin'") (.new "current_user")] := by
    rfl
  obtain ⟨renamed, hrenamed, -, hnodup, -⟩ := rewriteProjection_names hrewrite
    (by decide +kernel)
    { kept := by
        intro expr rewritten hexpr hok
        simp only [sampleItems, List.mem_cons, SelectItem.unnamedExpr.injEq, reduceCtorEq,
          List.not_mem_nil, or_false, false_or] at hexpr
        obtain rfl | rfl | rfl := hexpr
        · cases hok
          decide +kernel
        · cases hok
          decide +kernel
        · cases hok
          decide +kernel
      apart := by decide +kernel }
  exact ⟨renamed, hrenamed, hnodup⟩

/-- An alias in capital letters is not seen to be the name before it, and a name between quotes is
taken for another one. -/
theorem rewriteProjection_clash :
  rewriteProjection asciiLower quoted .ok []
      [.unnamedExpr (.identifier (.new "a")),
        .exprWithAlias (.identifier (.new "b")) (.new "A")]
    = .ok [.unnamedExpr (.identifier (.new "a")),
        .exprWithAlias (.identifier (.new "b")) (.new "A")]
  ∧ (Ident.new "A").sqlName asciiLower = (Ident.new "a").sqlName asciiLower
  ∧ rewriteProjection asciiLower quoted .ok []
      [.unnamedExpr (.identifier ⟨"A", true⟩), .unnamedExpr (.identifier (.new "a"))]
    = .ok [.unnamedExpr (.identifier ⟨"A", true⟩),
        .exprWithAlias (.identifier (.new "a")) (.new "a_1")]
  ∧ Ident.sqlName asciiLower ⟨"A", true⟩ ≠ (Ident.new "a").sqlName asciiLower
  := by decide +kernel

end Projection
