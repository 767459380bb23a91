import AnalyticsDB.Lib.SqlSelect
import AnalyticsDB.Lib.TopN

/-!
# The order of a result

The rows of a result are arranged by ORDER BY, in some order where it leaves them tied; DISTINCT
keeps the first one of each kind, and OFFSET and LIMIT cut the rest off.  A query may so have
several results.
-/

namespace Sql

/-- The order of the cells of an item of ORDER BY. -/
def OrderItem.le (item : OrderItem) : Cell → Cell → Bool
  | none, none => true
  | none, some _ => item.nullsFirst
  | some _, none => !item.nullsFirst
  | some a, some b => if item.descending then b ≤ a else a ≤ b

/-- The order of rows by their cells for the items of ORDER BY. -/
def keysLe : List OrderItem → List Cell → List Cell → Bool
  | [], _, _ => true
  | item :: items, as, bs =>
    item.le (as.headD none) (bs.headD none)
      && (!item.le (bs.headD none) (as.headD none) || keysLe items as.tail bs.tail)

theorem OrderItem.le_trans (item : OrderItem) (a b c : Cell) (hab : item.le a b)
    (hbc : item.le b c) :
  item.le a c
  := by
  cases a <;> cases b <;> cases c <;> simp_all [OrderItem.le]
  cases hdescending : item.descending with
  | true =>
      simp only [hdescending, if_true] at hab hbc ⊢
      exact hbc.trans hab
  | false =>
      simp only [hdescending, Bool.false_eq_true, if_false] at hab hbc ⊢
      exact hab.trans hbc

theorem OrderItem.le_or_le (item : OrderItem) (a b : Cell) : item.le a b ∨ item.le b a
  := by
  cases a with
  | none =>
      cases b with
      | none => exact .inl rfl
      | some y => cases h : item.nullsFirst <;> simp [OrderItem.le, h]
  | some x =>
      cases b with
      | none => cases h : item.nullsFirst <;> simp [OrderItem.le, h]
      | some y =>
          cases h : item.descending with
          | true => simpa [OrderItem.le, h] using le_total y x
          | false => simpa [OrderItem.le, h] using le_total x y

theorem keysLe_trans (items : List OrderItem) (as bs cs : List Cell) (hab : keysLe items as bs)
    (hbc : keysLe items bs cs) :
  keysLe items as cs
  := by
  induction items generalizing as bs cs with
  | nil => rfl
  | cons item items ih =>
      simp only [keysLe, Bool.and_eq_true, Bool.or_eq_true, Bool.not_eq_true'] at hab hbc ⊢
      obtain ⟨hab, htail⟩ := hab
      obtain ⟨hbc, htail'⟩ := hbc
      refine ⟨item.le_trans _ _ _ hab hbc, ?_⟩
      -- If the last head comes before the first one, all three are tied.
      cases hca : item.le (cs.headD none) (as.headD none) with
      | false => exact .inl rfl
      | true =>
          right
          have hba : item.le (bs.headD none) (as.headD none) := item.le_trans _ _ _ hbc hca
          have hcb : item.le (cs.headD none) (bs.headD none) := item.le_trans _ _ _ hca hab
          exact ih _ _ _ (htail.resolve_left (by simpa using hba))
            (htail'.resolve_left (by simpa using hcb))

theorem keysLe_total (items : List OrderItem) (as bs : List Cell) :
  keysLe items as bs ∨ keysLe items bs as
  := by
  induction items generalizing as bs with
  | nil => exact .inl rfl
  | cons item items ih =>
      simp only [keysLe, Bool.and_eq_true, Bool.or_eq_true, Bool.not_eq_true']
      cases hab : item.le (as.headD none) (bs.headD none) with
      | false =>
          right
          have hba := (item.le_or_le (as.headD none) (bs.headD none)).resolve_left
            (by rw [hab]; simp)
          exact ⟨hba, .inl rfl⟩
      | true =>
          cases hba : item.le (bs.headD none) (as.headD none) with
          | false => exact .inl ⟨rfl, .inl rfl⟩
          | true => simpa using ih as.tail bs.tail

namespace Query

variable (lang : Language) (q : Query) (t : Table)

/-- The cells a group is ordered by. -/
def orderKey (group : List Env) : List Cell :=
  q.orderBy.map (fun item =>
    ((q.orderExpr? t.columns item.expr).map (·.value lang (q.passing lang t) group)).join)

/-- A group may come before another one. -/
def Before (group other : List Env) : Prop :=
  keysLe q.orderBy (q.orderKey lang t group) (q.orderKey lang t other) = true

instance : DecidableRel (q.Before lang t) := fun _ _ => inferInstanceAs (Decidable (_ = true))

/-- What DISTINCT tells groups apart by. -/
def distinctKey (group : List Env) : Option (List Cell) :=
  match q.distinct with
  | .no => none
  | .rows => some (q.outputRow lang t group)
  | .on keys => some (keys.map (·.eval lang (SelectExpr.first group)))

/-- What OFFSET and LIMIT leave. -/
def cut {α : Type} (l : List α) : List α :=
  match q.limit with
  | none => l.drop (q.offset.getD 0)
  | some n => (l.drop (q.offset.getD 0)).take n

/-- The rows of a result of a query. -/
def Gives (named : Bool) (rows : List (List Cell)) : Prop :=
  q.plans lang named t.columns = true ∧ ∃ arranged : List (List Env),
    arranged.Perm (q.groupsOf lang t) ∧ arranged.Pairwise (q.Before lang t)
      ∧ rows = (q.cut (TopN.firsts (q.distinctKey lang t) arranged)).map (q.outputRow lang t)

variable {lang q t}

theorem before_trans (a b c : List Env) (hab : q.Before lang t a b) (hbc : q.Before lang t b c) :
  q.Before lang t a c
  := keysLe_trans _ _ _ _ hab hbc

theorem before_total (a b : List Env) : q.Before lang t a b ∨ q.Before lang t b a
  := keysLe_total _ _ _

theorem firsts_of_no (h : q.distinct = .no) (l : List (List Env)) :
  TopN.firsts (q.distinctKey lang t) l = l
  := by
  apply TopN.firsts_eq_of_fresh
  apply List.pairwise_of_forall
  intro a b hsome
  simp [distinctKey, h] at hsome

end Query

end Sql
