import Mathlib.Data.Bool.Basic
import Mathlib.Data.List.Basic

/-!
# Strings and parentheses

A text with strings between quotes and, outside of them, parentheses.  `scan` reads such a text with
a depth and a mark for strings, and fails at a closing parenthesis that closes nothing.  A text is
balanced when `scan` comes back to where it started, and a symbol of it is at the top level when
what stands before it is balanced.  `cut` cuts a text at its top-level delimiters: it finds the
balanced fragments without top-level delimiters of which the text is composed, when there are such.

A quote that is doubled within a string ends the string and starts another one, so that doubled
quotes need no case of their own.
-/

namespace Nesting

variable {α : Type} [DecidableEq α]

/-- The symbols that a text is structured by. -/
structure Marks (α : Type) where
  quote : α
  opening : α
  closing : α
  quote_ne_opening : quote ≠ opening
  quote_ne_closing : quote ≠ closing
  opening_ne_closing : opening ≠ closing

/-- How many parentheses are open, and whether the reader is within a string. -/
structure State where
  depth : Nat
  quoted : Bool
  deriving DecidableEq, Repr

/-- The state at the top level. -/
def top : State := ⟨0, false⟩

variable (m : Marks α)

/-- The state after a symbol. -/
def step (s : State) (c : α) : Option State :=
  if c = m.quote then some ⟨s.depth, !s.quoted⟩
  else if s.quoted then some s
  else if c = m.opening then some ⟨s.depth + 1, false⟩
  else if c = m.closing then if s.depth = 0 then none else some ⟨s.depth - 1, false⟩
  else some s

/-- The state after a text. -/
def scan : State → List α → Option State
  | s, [] => some s
  | s, c :: text => (step m s c).bind (fun s => scan s text)

/-- The quotes and the parentheses of a text match. -/
def Balanced (text : List α) : Prop := scan m top text = some top

instance (text : List α) : Decidable (Balanced m text) :=
  inferInstanceAs (Decidable (scan m top text = some top))

/-- Read from a state, a text has a delimiter at the top level. -/
def HasTopLevel (d : α) (s : State) (text : List α) : Prop :=
  ∃ before after, text = before ++ d :: after ∧ scan m s before = some top

/-- The fragments with a symbol in front of the first one. -/
def withHead (c : α) : List (List α) → List (List α)
  | fragment :: fragments => (c :: fragment) :: fragments
  | [] => []

/-- The fragments between the top-level delimiters of a text read from a state. -/
def cut (d : α) : State → List α → Option (List (List α))
  | s, [] => if s = top then some [[]] else none
  | s, c :: text =>
    if c = d ∧ s = top then (cut d top text).map ([] :: ·)
    else (step m s c).bind (fun s => (cut d s text).map (withHead c))

/-- A symbol that is none of the marks. -/
structure Marks.Plain (d : α) : Prop where
  ne_quote : d ≠ m.quote
  ne_opening : d ≠ m.opening
  ne_closing : d ≠ m.closing

variable {m}

theorem step_plain {d : α} (hd : m.Plain d) (s : State) :
  step m s d = some s
  := by
  rw [step, if_neg hd.ne_quote, if_neg hd.ne_opening, if_neg hd.ne_closing]
  split
  · rfl
  · rfl

theorem scan_append (s : State) (xs ys : List α) :
  scan m s (xs ++ ys) = (scan m s xs).bind (fun s => scan m s ys)
  := by
  induction xs generalizing s with
  | nil => rfl
  | cons x xs ih =>
      rw [List.cons_append, scan, scan, Option.bind_assoc]
      congr 1
      funext s
      apply ih

theorem hasTopLevel_cons {d c : α} {s : State} {text : List α} :
  HasTopLevel m d s (c :: text)
    ↔ (c = d ∧ s = top) ∨ ∃ s', step m s c = some s' ∧ HasTopLevel m d s' text
  := by
  constructor
  · rintro ⟨before, after, htext, hscan⟩
    cases before with
    | nil =>
        cases htext
        exact .inl ⟨rfl, Option.some.inj hscan⟩
    | cons b before =>
        cases htext
        rw [scan, Option.bind_eq_some_iff] at hscan
        obtain ⟨s', hstep, hscan⟩ := hscan
        exact .inr ⟨s', hstep, before, after, rfl, hscan⟩
  · rintro (⟨rfl, rfl⟩ | ⟨s', hstep, before, after, rfl, hscan⟩)
    · exact ⟨[], text, rfl, rfl⟩
    · refine ⟨c :: before, after, rfl, ?_⟩
      rw [scan, hstep, Option.bind_some, hscan]

instance decidableHasTopLevel (d : α) :
    (s : State) → (text : List α) → Decidable (HasTopLevel m d s text)
  | s, [] => .isFalse (by
      rintro ⟨before, after, htext, -⟩
      simp at htext)
  | s, c :: text =>
    match hstep : step m s c with
    | none => decidable_of_iff (c = d ∧ s = top) (by simp [hasTopLevel_cons, hstep])
    | some s' =>
      have : Decidable (HasTopLevel m d s' text) := decidableHasTopLevel d s' text
      decidable_of_iff ((c = d ∧ s = top) ∨ HasTopLevel m d s' text)
        (by simp [hasTopLevel_cons, hstep])

theorem cut_ne_nil {d : α} {s : State} {text : List α} {fragments : List (List α)}
    (h : cut m d s text = some fragments) :
  fragments ≠ []
  := by
  induction text generalizing s fragments with
  | nil =>
      rw [cut] at h
      split at h
      · cases h
        simp
      · cases h
  | cons c text ih =>
      rw [cut] at h
      split at h
      · obtain ⟨rest, -, rfl⟩ := Option.map_eq_some_iff.mp h
        simp
      · obtain ⟨s', -, h⟩ := Option.bind_eq_some_iff.mp h
        obtain ⟨rest, hrest, rfl⟩ := Option.map_eq_some_iff.mp h
        cases rest with
        | nil => exact absurd rfl (ih hrest)
        | cons fragment rest => simp [withHead]

/-- A fragment is cut off at a delimiter. -/
theorem cut_append {d : α} {s : State} {fragment : List α} (hscan : scan m s fragment = some top)
    (htop : ¬ HasTopLevel m d s fragment) (text : List α) :
  cut m d s (fragment ++ d :: text) = (cut m d top text).map (fragment :: ·)
  := by
  induction fragment generalizing s with
  | nil =>
      cases hscan
      rw [List.nil_append, cut, if_pos ⟨rfl, rfl⟩]
  | cons c fragment ih =>
      rw [hasTopLevel_cons, not_or] at htop
      rw [scan, Option.bind_eq_some_iff] at hscan
      obtain ⟨s', hstep, hscan⟩ := hscan
      rw [List.cons_append, cut, if_neg htop.1, hstep, Option.bind_some,
        ih hscan (fun h => htop.2 ⟨s', hstep, h⟩), Option.map_map]
      rfl

/-- A fragment at the end of the text is what remains. -/
theorem cut_last {d : α} {s : State} {fragment : List α} (hscan : scan m s fragment = some top)
    (htop : ¬ HasTopLevel m d s fragment) :
  cut m d s fragment = some [fragment]
  := by
  induction fragment generalizing s with
  | nil =>
      cases hscan
      rw [cut, if_pos rfl]
  | cons c fragment ih =>
      rw [hasTopLevel_cons, not_or] at htop
      rw [scan, Option.bind_eq_some_iff] at hscan
      obtain ⟨s', hstep, hscan⟩ := hscan
      rw [cut, if_neg htop.1, hstep, Option.bind_some, ih hscan (fun h => htop.2 ⟨s', hstep, h⟩)]
      rfl

/-- Balanced fragments without top-level delimiters are found in the text they compose. -/
theorem cut_intercalate {d : α} {fragments : List (List α)} (hne : fragments ≠ [])
    (h : ∀ fragment ∈ fragments, Balanced m fragment ∧ ¬ HasTopLevel m d top fragment) :
  cut m d top ([d].intercalate fragments) = some fragments
  := by
  induction fragments with
  | nil => exact absurd rfl hne
  | cons fragment fragments ih =>
      obtain ⟨⟨hbalanced, htop⟩, hrest⟩ := List.forall_mem_cons.mp h
      cases fragments with
      | nil =>
          rw [List.intercalate_singleton]
          exact cut_last hbalanced htop
      | cons next fragments =>
          rw [List.intercalate_cons_of_ne_nil (by simp), List.append_assoc, List.singleton_append,
            cut_append hbalanced htop, ih (by simp) hrest]
          rfl

/-- The fragments that are found compose the text, and only the first one is read from the state of
the text. -/
theorem cut_sound {d : α} {s : State} {text fragment : List α} {fragments : List (List α)}
    (h : cut m d s text = some (fragment :: fragments)) :
  text = [d].intercalate (fragment :: fragments)
    ∧ scan m s fragment = some top ∧ ¬ HasTopLevel m d s fragment
    ∧ ∀ other ∈ fragments, Balanced m other ∧ ¬ HasTopLevel m d top other
  := by
  have hnone : ∀ s, ¬ HasTopLevel m d s [] := by
    rintro s ⟨before, after, htext, -⟩
    simp at htext
  induction text generalizing s fragment fragments with
  | nil =>
      rw [cut] at h
      split at h
      · rename_i hs
        cases h
        exact ⟨rfl, by rw [scan, hs], hnone s, by simp⟩
      · cases h
  | cons c text ih =>
      rw [cut] at h
      split at h
      · -- the text starts with a delimiter
        rename_i hc
        obtain ⟨rest, hrest, hfragments⟩ := Option.map_eq_some_iff.mp h
        cases hfragments
        cases fragments with
        | nil => exact absurd rfl (cut_ne_nil hrest)
        | cons next fragments =>
            obtain ⟨htext, hscan, htop, hothers⟩ := ih hrest
            refine ⟨?_, by rw [scan, hc.2], hnone s, ?_⟩
            · rw [List.intercalate_cons_of_ne_nil (by simp), htext, hc.1]
              rfl
            · rw [List.forall_mem_cons]
              exact ⟨⟨hscan, htop⟩, hothers⟩
      · rename_i hc
        obtain ⟨s', hstep, h⟩ := Option.bind_eq_some_iff.mp h
        obtain ⟨rest, hrest, hfragments⟩ := Option.map_eq_some_iff.mp h
        cases rest with
        | nil => exact absurd rfl (cut_ne_nil hrest)
        | cons next rest =>
            cases hfragments
            obtain ⟨htext, hscan, htop, hothers⟩ := ih hrest
            refine ⟨?_, ?_, ?_, hothers⟩
            · rw [htext]
              cases fragments with
              | nil => simp
              | cons => rfl
            · rw [scan, hstep, Option.bind_some, hscan]
            · rw [hasTopLevel_cons, not_or]
              refine ⟨hc, ?_⟩
              rintro ⟨t, ht, htop'⟩
              rw [hstep] at ht
              cases ht
              exact htop htop'

/-- What is cut is cut exactly into the balanced fragments without top-level delimiters that compose
the text. -/
theorem cut_eq_some_iff {d : α} {text : List α} {fragments : List (List α)} :
  cut m d top text = some fragments
    ↔ fragments ≠ [] ∧ text = [d].intercalate fragments
      ∧ ∀ fragment ∈ fragments, Balanced m fragment ∧ ¬ HasTopLevel m d top fragment
  := by
  constructor
  · intro h
    cases fragments with
    | nil => exact absurd rfl (cut_ne_nil h)
    | cons fragment fragments =>
        obtain ⟨htext, hscan, htop, hothers⟩ := cut_sound h
        refine ⟨by simp, htext, ?_⟩
        rw [List.forall_mem_cons]
        exact ⟨⟨hscan, htop⟩, hothers⟩
  · rintro ⟨hne, rfl, h⟩
    exact cut_intercalate hne h

/-- A text can be cut exactly when it is balanced. -/
theorem cut_isSome_iff {d : α} (hd : m.Plain d) (s : State) (text : List α) :
  (cut m d s text).isSome = true ↔ scan m s text = some top
  := by
  induction text generalizing s with
  | nil =>
      rw [cut, scan, Option.some_inj]
      split
      · simpa
      · simpa
  | cons c text ih =>
      rw [cut, scan]
      split
      · rename_i hc
        rw [hc.1, hc.2, step_plain hd, Option.bind_some, Option.isSome_map, ih]
      · cases hstep : step m s c with
        | none => simp
        | some s' => rw [Option.bind_some, Option.bind_some, Option.isSome_map, ih]

/-! ### Counting -/

variable (m)

/-- Whether a text ends within a string when it starts there or does not. -/
def endsQuoted (quoted : Bool) (text : List α) : Bool := quoted ^^ text.count m.quote % 2 == 1

/-- The symbols of a text outside the strings. -/
def outside : Bool → List α → List α
  | _, [] => []
  | quoted, c :: text =>
    if c = m.quote then outside (!quoted) text
    else if quoted then outside quoted text
    else c :: outside quoted text

/-- The opening parentheses outside the strings. -/
def openings (quoted : Bool) (text : List α) : Nat := (outside m quoted text).count m.opening

/-- The closing parentheses outside the strings. -/
def closings (quoted : Bool) (text : List α) : Nat := (outside m quoted text).count m.closing

/-- Some closing parenthesis outside the strings closes no opening one. -/
def ClosesNothing (s : State) (text : List α) : Prop :=
  ∃ before after, text = before ++ m.closing :: after ∧ endsQuoted m s.quoted before = false
    ∧ s.depth + openings m s.quoted before ≤ closings m s.quoted before

variable {m}

theorem endsQuoted_cons (quoted : Bool) (c : α) (text : List α) :
  endsQuoted m quoted (c :: text) = endsQuoted m (if c = m.quote then !quoted else quoted) text
  := by
  unfold endsQuoted
  by_cases hc : c = m.quote
  · rw [if_pos hc, hc, List.count_cons_self]
    rcases Nat.mod_two_eq_zero_or_one (text.count m.quote) with h | h
    · have hsucc : (text.count m.quote + 1) % 2 = 1 := by omega
      rw [h, hsucc]
      cases quoted <;> rfl
    · have hsucc : (text.count m.quote + 1) % 2 = 0 := by omega
      rw [h, hsucc]
      cases quoted <;> rfl
  · rw [if_neg hc, List.count_cons_of_ne hc]

theorem outside_cons (quoted : Bool) (c : α) (text : List α) :
  outside m quoted (c :: text)
    = if c = m.quote then outside m (!quoted) text
      else if quoted then outside m quoted text
      else c :: outside m quoted text
  := rfl

/-- A step counts its symbol. -/
theorem step_counts {s s' : State} {c : α} (h : step m s c = some s') (text : List α) :
  endsQuoted m s.quoted (c :: text) = endsQuoted m s'.quoted text
    ∧ s.depth + openings m s.quoted (c :: text) + closings m s'.quoted text
      = s'.depth + openings m s'.quoted text + closings m s.quoted (c :: text)
  := by
  rw [endsQuoted_cons]
  unfold openings closings
  rw [outside_cons]
  unfold step at h
  split at h
  · cases h
    rename_i hc
    rw [if_pos hc, if_pos hc]
    exact ⟨rfl, rfl⟩
  · rename_i hc
    rw [if_neg hc, if_neg hc]
    split at h
    · cases h
      rename_i hquoted
      rw [if_pos hquoted]
      exact ⟨rfl, rfl⟩
    · rename_i hquoted
      rw [Bool.not_eq_true] at hquoted
      rw [hquoted, if_neg Bool.false_ne_true]
      split at h
      · cases h
        rename_i hopening
        rw [hopening, List.count_cons_self, List.count_cons_of_ne m.opening_ne_closing]
        exact ⟨rfl, by dsimp only; omega⟩
      · rename_i hopening
        rw [List.count_cons_of_ne hopening]
        split at h
        · rename_i hclosing
          split at h
          · cases h
          · cases h
            rw [hclosing, List.count_cons_self]
            exact ⟨rfl, by dsimp only; omega⟩
        · rename_i hclosing
          cases h
          rw [List.count_cons_of_ne hclosing, hquoted]
          exact ⟨rfl, rfl⟩

/-- A step fails at a closing parenthesis that closes nothing. -/
theorem step_eq_none_iff (s : State) (c : α) :
  step m s c = none ↔ c = m.closing ∧ s.quoted = false ∧ s.depth = 0
  := by
  unfold step
  split
  · rename_i hc
    rw [hc]
    simp [m.quote_ne_closing]
  · split
    · rename_i hquoted
      simp [hquoted]
    · split
      · rename_i hc
        rw [hc]
        simp [m.opening_ne_closing]
      · rename_i hquoted _
        split
        · rename_i hc
          rw [Bool.not_eq_true] at hquoted
          simp [hc, hquoted]
        · rename_i hc
          simp [hc]

theorem closesNothing_cons {s : State} {c : α} {text : List α} :
  ClosesNothing m s (c :: text)
    ↔ step m s c = none ∨ ∃ s', step m s c = some s' ∧ ClosesNothing m s' text
  := by
  constructor
  · rintro ⟨before, after, htext, hquoted, hdepth⟩
    cases hstep : step m s c with
    | none => exact .inl rfl
    | some s' =>
        refine .inr ⟨s', rfl, ?_⟩
        cases before with
        | nil =>
            -- the parenthesis is the first symbol, and the step does not fail at it
            cases htext
            have hnone := (step_eq_none_iff s m.closing).mpr
              ⟨rfl, by simpa [endsQuoted] using hquoted, by
                simpa [openings, closings, outside] using hdepth⟩
            rw [hstep] at hnone
            cases hnone
        | cons b before =>
            cases htext
            obtain ⟨hends, hcounts⟩ := step_counts hstep before
            exact ⟨before, after, rfl, hends ▸ hquoted, by omega⟩
  · rintro (hnone | ⟨s', hstep, before, after, rfl, hquoted, hdepth⟩)
    · obtain ⟨rfl, hquoted, hdepth⟩ := (step_eq_none_iff s c).mp hnone
      exact ⟨[], text, rfl, by rw [hquoted]; rfl, by simp [hdepth, openings, outside]⟩
    · obtain ⟨hends, hcounts⟩ := step_counts hstep before
      exact ⟨c :: before, after, rfl, hends.trans hquoted, by omega⟩

/-- Reading fails exactly when a closing parenthesis closes nothing. -/
theorem scan_eq_none_iff (s : State) (text : List α) :
  scan m s text = none ↔ ClosesNothing m s text
  := by
  induction text generalizing s with
  | nil =>
      rw [scan]
      refine ⟨by rintro ⟨⟩, ?_⟩
      rintro ⟨before, after, htext, -⟩
      simp at htext
  | cons c text ih =>
      rw [closesNothing_cons, scan]
      cases hstep : step m s c with
      | none => simp
      | some s' => simp [ih]

/-- What is counted in a text that can be read. -/
theorem counts_of_scan {s s' : State} {text : List α} (h : scan m s text = some s') :
  s'.quoted = endsQuoted m s.quoted text
    ∧ s'.depth + closings m s.quoted text = s.depth + openings m s.quoted text
  := by
  induction text generalizing s with
  | nil =>
      cases h
      exact ⟨by simp [endsQuoted], rfl⟩
  | cons c text ih =>
      rw [scan, Option.bind_eq_some_iff] at h
      obtain ⟨t, hstep, h⟩ := h
      obtain ⟨hends, hcounts⟩ := step_counts hstep text
      obtain ⟨hquoted, hdepth⟩ := ih h
      exact ⟨hquoted.trans hends.symm, by omega⟩

/-- A text is balanced unless a closing parenthesis closes nothing, a string is not closed, or a
parenthesis is not. -/
theorem not_balanced_iff (text : List α) :
  ¬ Balanced m text ↔ ClosesNothing m top text ∨ endsQuoted m false text = true
    ∨ openings m false text ≠ closings m false text
  := by
  rw [Balanced, ← scan_eq_none_iff]
  cases hscan : scan m top text with
  | none => simp
  | some s =>
      obtain ⟨hquoted, hdepth⟩ := counts_of_scan hscan
      have hstate : s = top ↔ s.quoted = false ∧ s.depth = 0 := by
        rw [top, State.mk.injEq]
        exact And.comm
      have hquoted' : endsQuoted m false text = s.quoted := hquoted.symm
      have hdepth' : s.depth + closings m false text = 0 + openings m false text := hdepth
      rw [Option.some_inj, hstate, hquoted', not_and_or, Bool.not_eq_false]
      simp only [reduceCtorEq, false_or]
      apply or_congr_right
      omega

end Nesting
