import Mathlib.Data.List.Forall2
import Mathlib.Data.List.TakeWhile

/-!
# Regular expressions

An expression is matched with the beginning of a text by backtracking: a repetition takes as much
as it can and gives back one character after the other until what follows matches, and an optional
part is left out only when nothing matches with it.  So of all ways in which an expression matches
the first one in this order is taken.
-/

inductive Regex (α : Type) where
  | one (p : α → Bool)
  | many (p : α → Bool)
  | seq (r s : Regex α)
  | optional (r : Regex α)
  | group (r : Regex α)

namespace Regex

variable {α β : Type}

/-- What the groups of an expression have matched, if anything, in the order of their opening
parentheses. -/
abbrev Captures (α : Type) := List (Option (List α))

/-- The number of groups. -/
def groups : Regex α → Nat
  | .one _ | .many _ => 0
  | .seq r s => r.groups + s.groups
  | .optional r => r.groups
  | .group r => r.groups + 1

/-- The longest repetition after which the rest is accepted. -/
def firstMany (p : α → Bool) (accept : List α → Option β) : List α → Option β
  | [] => accept []
  | c :: rest =>
    if p c then (firstMany p accept rest).or (accept (c :: rest)) else accept (c :: rest)

/-- The first way in which an expression matches the beginning of a text such that the captures and
the rest of the text are accepted. -/
def first : Regex α → List α → (Captures α → List α → Option β) → Option β
  | .one p, text, accept =>
    match text with
    | [] => none
    | c :: rest => if p c then accept [] rest else none
  | .many p, text, accept => firstMany p (accept []) text
  | .seq r s, text, accept =>
    r.first text (fun captures rest =>
      s.first rest (fun captures' rest' => accept (captures ++ captures') rest'))
  | .optional r, text, accept =>
    (r.first text accept).or (accept (List.replicate r.groups none) text)
  | .group r, text, accept =>
    r.first text (fun captures rest =>
      accept (some (text.take (text.length - rest.length)) :: captures) rest)

/-- The captures of the first match that begins at the beginning of a text. -/
def capturesAt (r : Regex α) (text : List α) : Option (Captures α) :=
  r.first text (fun captures _ => some captures)

/-- The captures of the leftmost match in a text. -/
def captures (r : Regex α) : List α → Option (Captures α)
  | [] => r.capturesAt []
  | c :: rest => (r.capturesAt (c :: rest)).or (r.captures rest)

/-- At least one character of a class. -/
def oneOrMore (p : α → Bool) : Regex α := .seq (.one p) (.many p)

/-- An expression after one character of each class. -/
def word : List (α → Bool) → Regex α → Regex α
  | [], r => r
  | p :: ps, r => .seq (.one p) (word ps r)

variable {p : α → Bool} {accept : List α → Option β}

/-- A repetition is the longest one if a shorter one is accepted only when the longest is. -/
theorem firstMany_eq {text : List α}
    (h : ∀ c rest, p c = true → accept (rest.dropWhile p) = none → accept (c :: rest) = none) :
  firstMany p accept text = accept (text.dropWhile p)
  := by
  induction text with
  | nil => rfl
  | cons c rest ih =>
      unfold firstMany
      split
      · rename_i hc
        rw [ih, List.dropWhile_cons_of_pos hc]
        cases hrest : accept (rest.dropWhile p) with
        | none => rw [h c rest hc hrest, Option.or_none]
        | some b => rfl
      · rename_i hc
        rw [List.dropWhile_cons_of_neg hc]

theorem firstMany_eq_none_iff {text : List α} :
  firstMany p accept text = none ↔ ∀ taken rest, text = taken ++ rest →
    (∀ c ∈ taken, p c = true) → accept rest = none
  := by
  induction text with
  | nil =>
      constructor
      · rintro h taken rest heq -
        obtain ⟨-, rfl⟩ := List.append_eq_nil_iff.mp heq.symm
        exact h
      · intro h
        exact h [] [] rfl (by simp)
  | cons c text ih =>
      unfold firstMany
      split
      · rename_i hc
        rw [Option.or_eq_none_iff, ih]
        constructor
        · rintro ⟨h, hnone⟩ taken rest heq htaken
          cases taken with
          | nil =>
              obtain rfl : c :: text = rest := heq
              exact hnone
          | cons d taken =>
              obtain ⟨rfl, htext⟩ := List.cons.inj heq
              exact h taken rest htext fun e he => htaken e (List.mem_cons_of_mem _ he)
        · intro h
          refine ⟨?_, h [] _ rfl (by simp)⟩
          rintro taken rest rfl htaken
          exact h (c :: taken) rest rfl (List.forall_mem_cons.mpr ⟨hc, htaken⟩)
      · rename_i hc
        constructor
        · intro hnone taken rest heq htaken
          cases taken with
          | nil =>
              obtain rfl : c :: text = rest := heq
              exact hnone
          | cons d taken =>
              obtain ⟨rfl, -⟩ := List.cons.inj heq
              exact absurd (htaken c List.mem_cons_self) hc
        · intro h
          exact h [] _ rfl (by simp)

/-- What a repetition takes is accepted, and nothing longer is. -/
theorem firstMany_eq_some_iff {text : List α} {b : β} :
  firstMany p accept text = some b ↔ ∃ taken rest, text = taken ++ rest
    ∧ (∀ c ∈ taken, p c = true) ∧ accept rest = some b
    ∧ ∀ more rest', rest = more ++ rest' → more ≠ [] → (∀ c ∈ more, p c = true) →
      accept rest' = none
  := by
  constructor
  · intro h
    induction text with
    | nil =>
        refine ⟨[], [], rfl, by simp, h, ?_⟩
        intro more rest' heq hne
        exact absurd (List.append_eq_nil_iff.mp heq.symm).1 hne
    | cons c text ih =>
        unfold firstMany at h
        split at h
        · rename_i hc
          cases hmany : firstMany p accept text with
          | some b' =>
              rw [hmany, Option.some_or] at h
              obtain ⟨taken, rest, rfl, htaken, haccept, hlongest⟩ := ih (hmany.trans h)
              exact ⟨c :: taken, rest, rfl, List.forall_mem_cons.mpr ⟨hc, htaken⟩, haccept,
                hlongest⟩
          | none =>
              rw [hmany, Option.none_or] at h
              refine ⟨[], c :: text, rfl, by simp, h, ?_⟩
              intro more rest' heq hne hmore
              cases more with
              | nil => exact absurd rfl hne
              | cons d more =>
                  obtain ⟨-, heq⟩ := List.cons.inj heq
                  exact firstMany_eq_none_iff.mp hmany more rest' heq
                    fun e he => hmore e (List.mem_cons_of_mem _ he)
        · rename_i hc
          refine ⟨[], c :: text, rfl, by simp, h, ?_⟩
          intro more rest' heq hne hmore
          cases more with
          | nil => exact absurd rfl hne
          | cons d more =>
              obtain ⟨rfl, -⟩ := List.cons.inj heq
              exact absurd (hmore c List.mem_cons_self) hc
  · rintro ⟨taken, rest, rfl, htaken, haccept, hlongest⟩
    induction taken with
    | nil =>
        cases rest with
        | nil => exact haccept
        | cons c rest =>
            rw [List.nil_append, firstMany]
            split
            · rename_i hc
              have hnone : firstMany p accept rest = none := by
                apply firstMany_eq_none_iff.mpr
                rintro taken rest' rfl htaken
                exact hlongest (c :: taken) rest' rfl (List.cons_ne_nil c taken)
                  (List.forall_mem_cons.mpr ⟨hc, htaken⟩)
              rw [hnone, Option.none_or, haccept]
            · exact haccept
    | cons c taken ih =>
        obtain ⟨hc, htaken⟩ := List.forall_mem_cons.mp htaken
        rw [List.cons_append, firstMany, if_pos hc, ih htaken, Option.some_or]

/-- A word is matched character by character. -/
theorem first_word {ps : List (α → Bool)} {r : Regex α} {text : List α}
    {accept : Captures α → List α → Option β} {b : β} :
  (word ps r).first text accept = some b ↔ ∃ written rest, text = written ++ rest
    ∧ List.Forall₂ (fun p c => p c = true) ps written ∧ r.first rest accept = some b
  := by
  induction ps generalizing text with
  | nil =>
      constructor
      · intro h
        exact ⟨[], text, rfl, List.Forall₂.nil, h⟩
      · rintro ⟨written, rest, rfl, hwritten, h⟩
        cases hwritten
        exact h
  | cons p ps ih =>
      constructor
      · intro h
        cases text with
        | nil => cases h
        | cons c text =>
            unfold word first first at h
            dsimp only at h
            split at h
            · rename_i hc
              obtain ⟨written, rest, rfl, hwritten, h⟩ := ih.mp h
              exact ⟨c :: written, rest, rfl, List.Forall₂.cons hc hwritten, h⟩
            · cases h
      · rintro ⟨written, rest, rfl, hwritten, h⟩
        cases hwritten with
        | @cons _ c _ written hc hwritten =>
            unfold word first first
            dsimp only [List.cons_append]
            rw [if_pos hc]
            exact ih.mpr ⟨written, rest, rfl, hwritten, h⟩

/-- At least one character, before something that does not begin with such a character. -/
theorem first_oneOrMore {r : Regex α} {text : List α} {accept : Captures α → List α → Option β}
    {b : β} (hr : ∀ c rest, p c = true → r.first (c :: rest) accept = none) :
  (Regex.seq (.oneOrMore p) r).first text accept = some b ↔ ∃ c taken rest,
    text = c :: (taken ++ rest) ∧ p c = true ∧ (∀ d ∈ taken, p d = true)
      ∧ r.first rest accept = some b
  := by
  cases text with
  | nil =>
      constructor
      · intro h
        cases h
      · rintro ⟨c, taken, rest, heq, -⟩
        cases heq
  | cons c text =>
      change (if p c = true then firstMany p (fun rest => r.first rest accept) text else none)
        = some b ↔ _
      constructor
      · intro h
        split at h
        · rename_i hc
          obtain ⟨taken, rest, rfl, htaken, h, -⟩ := firstMany_eq_some_iff.mp h
          exact ⟨c, taken, rest, rfl, hc, htaken, h⟩
        · cases h
      · rintro ⟨d, taken, rest, heq, hd, htaken, h⟩
        obtain ⟨rfl, rfl⟩ := List.cons.inj heq
        rw [if_pos hd, firstMany_eq_some_iff]
        refine ⟨taken, rest, rfl, htaken, h, ?_⟩
        rintro more rest' rfl hne hmore
        cases more with
        | nil => exact absurd rfl hne
        | cons e more =>
            rw [List.cons_append, hr e _ (hmore e List.mem_cons_self)] at h
            cases h

/-- A group of at least one character is the longest after which the rest is matched. -/
theorem first_group_oneOrMore {r : Regex α} {text : List α}
    {accept : Captures α → List α → Option β} {b : β} :
  (Regex.seq (.group (.oneOrMore p)) r).first text accept = some b ↔ ∃ taken rest,
    text = taken ++ rest ∧ taken ≠ [] ∧ (∀ c ∈ taken, p c = true)
      ∧ r.first rest (fun captures => accept (some taken :: captures)) = some b
      ∧ ∀ more rest', rest = more ++ rest' → more ≠ [] → (∀ c ∈ more, p c = true) →
        r.first rest' (fun captures => accept (some (taken ++ more) :: captures)) = none
  := by
  cases text with
  | nil =>
      constructor
      · intro h
        cases h
      · rintro ⟨taken, rest, heq, hne, -⟩
        exact absurd (List.append_eq_nil_iff.mp heq.symm).1 hne
  | cons c text =>
      have htake : ∀ taken rest : List α,
          (taken ++ rest).take ((taken ++ rest).length - rest.length) = taken := by
        intro taken rest
        rw [List.length_append, Nat.add_sub_cancel, List.take_left']
        rfl
      change (if p c = true then firstMany p (fun rest => r.first rest (fun captures =>
        accept (some ((c :: text).take ((c :: text).length - rest.length)) :: captures))) text
        else none) = some b ↔ _
      constructor
      · intro h
        split at h
        · rename_i hc
          obtain ⟨taken, rest, rfl, htaken, h, hlongest⟩ := firstMany_eq_some_iff.mp h
          refine ⟨c :: taken, rest, rfl, List.cons_ne_nil c taken,
            List.forall_mem_cons.mpr ⟨hc, htaken⟩, ?_, ?_⟩
          · rw [← List.cons_append, htake] at h
            exact h
          · rintro more rest' rfl hne hmore
            have := hlongest more rest' rfl hne hmore
            rw [← List.append_assoc, ← List.cons_append, htake] at this
            exact this
        · cases h
      · rintro ⟨taken, rest, heq, hne, htaken, h, hlongest⟩
        cases taken with
        | nil => exact absurd rfl hne
        | cons d taken =>
            obtain ⟨rfl, htext⟩ := List.cons.inj heq
            obtain rfl : text = taken ++ rest := htext
            obtain ⟨hc, htaken⟩ := List.forall_mem_cons.mp htaken
            rw [if_pos hc, firstMany_eq_some_iff]
            refine ⟨taken, rest, rfl, htaken, ?_, ?_⟩
            · rw [← List.cons_append, htake]
              exact h
            · rintro more rest' rfl hne hmore
              have := hlongest more rest' rfl hne hmore
              rw [← List.append_assoc, ← List.cons_append, htake]
              exact this

/-- A match is at the leftmost place where there is one. -/
theorem captures_eq_some_iff {r : Regex α} {text : List α} {caps : Captures α} :
  r.captures text = some caps ↔ ∃ before here, text = before ++ here
    ∧ r.capturesAt here = some caps
    ∧ ∀ earlier there, text = earlier ++ there → earlier.length < before.length →
      r.capturesAt there = none
  := by
  constructor
  · intro h
    induction text with
    | nil => exact ⟨[], [], rfl, h, by simp⟩
    | cons c rest ih =>
        rw [captures, Option.or_eq_some_iff] at h
        obtain h | ⟨hnone, h⟩ := h
        · exact ⟨[], c :: rest, rfl, h, by simp⟩
        · obtain ⟨before, here, rfl, hhere, hearlier⟩ := ih h
          refine ⟨c :: before, here, rfl, hhere, ?_⟩
          intro earlier there heq hlength
          cases earlier with
          | nil =>
              obtain rfl : c :: (before ++ here) = there := heq
              exact hnone
          | cons d earlier =>
              obtain ⟨-, hrest⟩ := List.cons.inj heq
              exact hearlier earlier there hrest (by simpa using hlength)
  · rintro ⟨before, here, rfl, hhere, hearlier⟩
    induction before with
    | nil =>
        cases here with
        | nil => exact hhere
        | cons c rest => rw [List.nil_append, captures, hhere, Option.some_or]
    | cons c before ih =>
        have hnone : r.capturesAt (c :: (before ++ here)) = none :=
          hearlier [] _ rfl (Nat.zero_lt_succ _)
        rw [List.cons_append, captures, hnone, Option.none_or]
        apply ih
        intro earlier there heq hlength
        exact hearlier (c :: earlier) there (congrArg (c :: ·) heq) (Nat.succ_lt_succ hlength)

/-- There is no match when there is one nowhere. -/
theorem captures_eq_none_iff {r : Regex α} {text : List α} :
  r.captures text = none ↔ ∀ before here, text = before ++ here → r.capturesAt here = none
  := by
  constructor
  · rintro h before here rfl
    cases hhere : r.capturesAt here with
    | none => rfl
    | some caps =>
        exfalso
        induction before with
        | nil =>
            cases here with
            | nil => exact absurd (h.symm.trans hhere) (Option.some_ne_none caps).symm
            | cons c rest =>
                rw [List.nil_append, captures, hhere, Option.some_or] at h
                cases h
        | cons c before ih =>
            rw [List.cons_append, captures, Option.or_eq_none_iff] at h
            exact ih h.2
  · intro h
    cases hcaptures : r.captures text with
    | none => rfl
    | some caps =>
        obtain ⟨before, here, heq, hhere, -⟩ := captures_eq_some_iff.mp hcaptures
        rw [h before here heq] at hhere
        cases hhere

end Regex
