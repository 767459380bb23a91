import Mathlib.Data.List.TakeWhile

/-!
# Texts with holes

A text in which some of the placeholders `$digits` are holes, to be filled with values.  The
digits of a hole are all the digits there are.  When no value starts with a dollar sign, a text
and what it becomes tell where its holes are: two such ways of filling a text agree exactly when
they have the same holes.  Nothing of this changes when the characters outside ASCII are spoilt
in one of them, except that the two then never agree.
-/

namespace Template

/-- A character of a text, or a hole with its digits. -/
inductive Piece where
  | char (c : Char)
  | hole (digits : List Char)
  deriving DecidableEq, Repr

/-- The text of a piece. -/
def Piece.source : Piece → List Char
  | .char c => [c]
  | .hole digits => '$' :: digits

/-- The text of pieces. -/
def source (pieces : List Piece) : List Char := pieces.flatMap Piece.source

/-- The text with its holes filled. -/
def fill (value : List Char → List Char) (pieces : List Piece) : List Char :=
  pieces.flatMap (fun piece => match piece with
    | .char c => [c]
    | .hole digits => value digits)

/-- A text does not start with a digit. -/
def NoDigit (text : List Char) : Prop := ∀ c ∈ text.head?, c.isDigit = false

/-- Every hole has digits, and all the digits there are. -/
def Greedy : List Piece → Prop
  | [] => True
  | .char _ :: rest => Greedy rest
  | .hole digits :: rest =>
    digits ≠ [] ∧ (∀ d ∈ digits, d.isDigit = true) ∧ NoDigit (source rest) ∧ Greedy rest

section

variable (c : Char) (digits : List Char) (rest : List Piece) (value : List Char → List Char)

@[simp]
theorem source_char :
  source (.char c :: rest) = c :: source rest
  := rfl

@[simp]
theorem source_hole :
  source (.hole digits :: rest) = '$' :: (digits ++ source rest)
  := rfl

@[simp]
theorem fill_char :
  fill value (.char c :: rest) = c :: fill value rest
  := rfl

@[simp]
theorem fill_hole :
  fill value (.hole digits :: rest) = value digits ++ fill value rest
  := rfl

end

theorem greedy_char {c : Char} {rest : List Piece} :
  Greedy (.char c :: rest) ↔ Greedy rest
  := Iff.rfl

/-- Only no pieces have no text. -/
theorem eq_nil_of_source_eq_nil {pieces : List Piece} (h : source pieces = []) :
  pieces = []
  := by
  cases pieces with
  | nil => rfl
  | cons piece rest =>
      cases piece with
      | char c => cases h
      | hole digits => cases h

/-- The digits a text starts with are determined. -/
theorem digits_eq {digits digits' text text' : List Char}
    (hdigits : ∀ d ∈ digits, d.isDigit = true) (hdigits' : ∀ d ∈ digits', d.isDigit = true)
    (htext : NoDigit text) (htext' : NoDigit text') (h : digits ++ text = digits' ++ text') :
  digits = digits' ∧ text = text'
  := by
  induction digits generalizing digits' with
  | nil =>
      cases digits' with
      | nil => exact ⟨rfl, h⟩
      | cons d digits' =>
          have hd := htext d (by rw [show text = _ from h]; rfl)
          rw [hdigits' d List.mem_cons_self] at hd
          cases hd
  | cons d digits ih =>
      cases digits' with
      | nil =>
          have hd := htext' d (by rw [← show _ = text' from h]; rfl)
          rw [hdigits d List.mem_cons_self] at hd
          cases hd
      | cons d' digits' =>
          rw [List.cons_append, List.cons_append] at h
          obtain ⟨rfl, htail⟩ := List.cons.inj h
          obtain ⟨rfl, rfl⟩ := ih (fun e he => hdigits e (List.mem_cons_of_mem _ he))
            (fun e he => hdigits' e (List.mem_cons_of_mem _ he)) htail
          exact ⟨rfl, rfl⟩

/-! ### Where the holes are -/

/-- There is a hole after a part of the text. -/
def HoleAt (pieces : List Piece) (before : List Char) : Prop :=
  ∃ left digits right, pieces = left ++ .hole digits :: right ∧ source left = before

theorem holeAt_nil (before : List Char) :
  ¬ HoleAt [] before
  := by
  rintro ⟨left, digits, right, h, -⟩
  exact List.cons_ne_nil _ _ (List.append_eq_nil_iff.mp h.symm).2

theorem holeAt_char {c : Char} {rest : List Piece} {before : List Char} :
  HoleAt (.char c :: rest) before ↔ ∃ before', before = c :: before' ∧ HoleAt rest before'
  := by
  constructor
  · rintro ⟨left, digits, right, h, rfl⟩
    cases left with
    | nil => cases h
    | cons piece left =>
        cases h
        exact ⟨source left, rfl, left, digits, right, rfl, rfl⟩
  · rintro ⟨before', rfl, left, digits, right, rfl, rfl⟩
    exact ⟨.char c :: left, digits, right, rfl, rfl⟩

theorem holeAt_hole {digits : List Char} {rest : List Piece} {before : List Char} :
  HoleAt (.hole digits :: rest) before
    ↔ before = [] ∨ ∃ before', before = '$' :: (digits ++ before') ∧ HoleAt rest before'
  := by
  constructor
  · rintro ⟨left, digits', right, h, rfl⟩
    cases left with
    | nil => exact .inl rfl
    | cons piece left =>
        cases h
        exact .inr ⟨source left, rfl, left, digits', right, rfl, rfl⟩
  · rintro (rfl | ⟨before', rfl, left, digits', right, rfl, rfl⟩)
    · exact ⟨[], digits, rest, rfl, rfl⟩
    · exact ⟨.hole digits :: left, digits', right, rfl, rfl⟩

/-- A hole is a dollar sign and digits. -/
theorem source_of_holeAt {pieces : List Piece} {before : List Char} (hgreedy : Greedy pieces)
    (h : HoleAt pieces before) :
  ∃ d rest, source pieces = before ++ '$' :: d :: rest ∧ d.isDigit = true
  := by
  induction pieces generalizing before with
  | nil => exact absurd h (holeAt_nil before)
  | cons piece pieces ih =>
      cases piece with
      | char c =>
          obtain ⟨before', rfl, hhole⟩ := holeAt_char.mp h
          obtain ⟨d, rest, hsource, hd⟩ := ih (greedy_char.mp hgreedy) hhole
          exact ⟨d, rest, by rw [source_char, hsource, List.cons_append], hd⟩
      | hole digits =>
          obtain ⟨hne, hdigits, -, hrest⟩ := hgreedy
          obtain rfl | ⟨before', rfl, hhole⟩ := holeAt_hole.mp h
          · cases digits with
            | nil => exact absurd rfl hne
            | cons d digits =>
                exact ⟨d, digits ++ source pieces, rfl, hdigits d List.mem_cons_self⟩
          · obtain ⟨d, rest, hsource, hd⟩ := ih hrest hhole
            exact ⟨d, rest, by simp [hsource], hd⟩

/-- The holes of a text tell its pieces. -/
theorem eq_of_holeAt_iff {pieces pieces' : List Piece} (hgreedy : Greedy pieces)
    (hgreedy' : Greedy pieces') (hsource : source pieces = source pieces')
    (hholes : ∀ before, HoleAt pieces before ↔ HoleAt pieces' before) :
  pieces = pieces'
  := by
  induction pieces generalizing pieces' with
  | nil => exact (eq_nil_of_source_eq_nil hsource.symm).symm
  | cons piece rest ih =>
      cases pieces' with
      | nil => exact eq_nil_of_source_eq_nil hsource
      | cons piece' rest' =>
          cases piece with
          | char c =>
              cases piece' with
              | char c' =>
                  rw [source_char, source_char] at hsource
                  obtain ⟨rfl, htail⟩ := List.cons.inj hsource
                  rw [ih (greedy_char.mp hgreedy) (greedy_char.mp hgreedy') htail]
                  intro before
                  have hbefore := hholes (c :: before)
                  simpa [holeAt_char] using hbefore
              | hole digits' =>
                  have hnil := (hholes []).mpr (holeAt_hole.mpr (.inl rfl))
                  simp [holeAt_char] at hnil
          | hole digits =>
              cases piece' with
              | char c' =>
                  have hnil := (hholes []).mp (holeAt_hole.mpr (.inl rfl))
                  simp [holeAt_char] at hnil
              | hole digits' =>
                  obtain ⟨-, hdigits, hno, hrest⟩ := hgreedy
                  obtain ⟨-, hdigits', hno', hrest'⟩ := hgreedy'
                  rw [source_hole, source_hole] at hsource
                  obtain ⟨rfl, htail⟩ :=
                    digits_eq hdigits hdigits' hno hno' (List.cons.inj hsource).2
                  rw [ih hrest hrest' htail]
                  intro before
                  have hbefore := hholes ('$' :: (digits ++ before))
                  simpa [holeAt_hole] using hbefore

/-! ### What a filled text tells -/

/-- A value starts with a character of ASCII that is not a dollar sign. -/
def Tells (value : List Char) : Prop :=
  ∃ c rest, value = c :: rest ∧ c.toNat < 128 ∧ c ≠ '$'

/-- Pieces whose text starts with characters outside ASCII start with these. -/
theorem split_of_source_eq {pieces : List Piece} {text rest : List Char}
    (htext : ∀ c ∈ text, 128 ≤ c.toNat) (hgreedy : Greedy pieces)
    (h : source pieces = text ++ rest) :
  ∃ right, pieces = text.map .char ++ right ∧ source right = rest ∧ Greedy right
  := by
  induction text generalizing pieces with
  | nil => exact ⟨pieces, rfl, h, hgreedy⟩
  | cons c text ih =>
      cases pieces with
      | nil => cases h
      | cons piece pieces =>
          cases piece with
          | hole digits =>
              obtain ⟨rfl, -⟩ := List.cons.inj h
              have hc := htext '$' List.mem_cons_self
              exact absurd hc (by decide)
          | char c' =>
              obtain ⟨rfl, htail⟩ := List.cons.inj h
              obtain ⟨right, rfl, hright⟩ := ih
                (fun d hd => htext d (List.mem_cons_of_mem _ hd)) (greedy_char.mp hgreedy) htail
              exact ⟨right, rfl, hright⟩

theorem fill_map_char (value : List Char → List Char) (text : List Char) (rest : List Piece) :
  fill value (text.map .char ++ rest) = text ++ fill value rest
  := by
  induction text with
  | nil => rfl
  | cons c text ih => rw [List.map_cons, List.cons_append, fill_char, ih, List.cons_append]

/-- A text that starts with a value starts in ASCII. -/
theorem Tells.extra_eq_nil {value rest text extra : List Char} (h : Tells value)
    (hextra : ∀ c ∈ extra, 128 ≤ c.toNat) (heq : extra ++ text = value ++ rest) :
  extra = []
  := by
  obtain ⟨c, tail, rfl, hlt, -⟩ := h
  cases extra with
  | nil => rfl
  | cons d extra =>
      obtain ⟨rfl, -⟩ := List.cons.inj heq
      have hd := hextra d List.mem_cons_self
      omega

theorem Tells.ne_dollar {value rest text : List Char} (h : Tells value) :
  '$' :: text ≠ value ++ rest
  := by
  obtain ⟨c, tail, rfl, -, hc⟩ := h
  intro heq
  exact hc (List.cons.inj heq).1.symm

/-- The digits are in ASCII. -/
theorem lt_of_isDigit {c : Char} (h : c.isDigit = true) :
  c.toNat < 128
  := by
  simp only [Char.isDigit, Bool.and_eq_true, decide_eq_true_eq, ge_iff_le,
    UInt32.le_iff_toNat_le] at h
  have hnine : ('9'.val).toNat = 57 := rfl
  have hc : c.toNat = c.val.toNat := rfl
  omega

section

variable {spoil : Char → List Char} {value : List Char → List Char}

/-- Digits are not spoilt. -/
theorem flatMap_digits (hascii : ∀ c, c.toNat < 128 → spoil c = [c]) {digits : List Char}
    (hdigits : ∀ d ∈ digits, d.isDigit = true) :
  digits.flatMap spoil = digits
  := by
  induction digits with
  | nil => rfl
  | cons d digits ih =>
      rw [List.flatMap_cons, hascii d (lt_of_isDigit (hdigits d List.mem_cons_self)),
        ih (fun e he => hdigits e (List.mem_cons_of_mem _ he)), List.singleton_append]

/-- A spoilt text starts with a digit only when the text does. -/
theorem noDigit_flatMap (hascii : ∀ c, c.toNat < 128 → spoil c = [c])
    (hspoil : ∀ c, 128 ≤ c.toNat → 2 ≤ (spoil c).length ∧ ∀ b ∈ spoil c, 128 ≤ b.toNat)
    {text : List Char} (h : NoDigit text) :
  NoDigit (text.flatMap spoil)
  := by
  cases text with
  | nil => exact h
  | cons d text =>
      rcases Nat.lt_or_ge d.toNat 128 with hd | hd
      · rw [List.flatMap_cons, hascii d hd]
        exact h
      · obtain ⟨hlength, hbytes⟩ := hspoil d hd
        rw [List.flatMap_cons]
        cases hbs : spoil d with
        | nil =>
            rw [hbs] at hlength
            cases hlength
        | cons b bs =>
            intro c hc
            cases hc
            have hb := hbytes b (by rw [hbs]; exact List.mem_cons_self)
            by_contra hdigit
            have hlt := lt_of_isDigit (Bool.not_eq_false _ ▸ hdigit)
            omega

/-- A text whose characters outside ASCII are spoilt, each becoming several, is filled to the
same as the text itself only when all is ASCII and the holes are the same.  The characters
`extra` are those that the spoilt text is ahead by. -/
theorem eq_of_fill_eq (hascii : ∀ c, c.toNat < 128 → spoil c = [c])
    (hspoil : ∀ c, 128 ≤ c.toNat → 2 ≤ (spoil c).length ∧ ∀ b ∈ spoil c, 128 ≤ b.toNat)
    {pieces pieces' : List Piece} {extra : List Char} (hgreedy : Greedy pieces)
    (hgreedy' : Greedy pieces') (hsource : source pieces' = (source pieces).flatMap spoil)
    (hvalue : ∀ digits, Piece.hole digits ∈ pieces → Tells (value digits))
    (hvalue' : ∀ digits, Piece.hole digits ∈ pieces' → Tells (value digits))
    (hextra : ∀ c ∈ extra, 128 ≤ c.toNat)
    (h : extra ++ fill value pieces' = fill value pieces) :
  extra = [] ∧ pieces' = pieces ∧ ∀ c ∈ source pieces, c.toNat < 128
  := by
  induction pieces generalizing pieces' extra with
  | nil =>
      obtain rfl := eq_nil_of_source_eq_nil hsource
      obtain rfl : extra = [] := by simpa [fill] using h
      exact ⟨rfl, rfl, fun c hc => nomatch hc⟩
  | cons piece rest ih =>
      have hvalueRest : ∀ digits, Piece.hole digits ∈ rest → Tells (value digits) :=
        fun digits hdigits => hvalue digits (List.mem_cons_of_mem _ hdigits)
      cases piece with
      | char c =>
          rw [source_char, List.flatMap_cons] at hsource
          rw [fill_char] at h
          rcases Nat.lt_or_ge c.toNat 128 with hc | hc
          · -- The text goes on in ASCII, so nothing is ahead.
            obtain rfl : extra = [] := by
              cases extra with
              | nil => rfl
              | cons d extra =>
                  obtain ⟨rfl, -⟩ := List.cons.inj h
                  have hd := hextra d List.mem_cons_self
                  omega
            rw [hascii c hc, List.singleton_append] at hsource
            cases pieces' with
            | nil => cases hsource
            | cons piece' rest' =>
                cases piece' with
                | char c' =>
                    obtain ⟨rfl, htail⟩ := List.cons.inj hsource
                    obtain ⟨-, rfl, hrest⟩ := ih (greedy_char.mp hgreedy)
                      (greedy_char.mp hgreedy') htail hvalueRest
                      (fun digits hdigits => hvalue' digits (List.mem_cons_of_mem _ hdigits))
                      hextra (List.cons.inj h).2
                    refine ⟨rfl, rfl, ?_⟩
                    intro d hd
                    obtain rfl | hd := List.mem_cons.mp hd
                    · exact hc
                    · exact hrest d hd
                | hole digits =>
                    obtain ⟨rfl, -⟩ := List.cons.inj hsource
                    rw [List.nil_append, fill_hole] at h
                    exact absurd h.symm (hvalue' digits List.mem_cons_self).ne_dollar
          · -- What is ahead only grows, so it is not nothing in the end.
            obtain ⟨hlength, hbytes⟩ := hspoil c hc
            obtain ⟨right, rfl, hright, hgreedyRight⟩ :=
              split_of_source_eq hbytes hgreedy' hsource
            rw [fill_map_char, ← List.append_assoc] at h
            cases hahead : extra ++ spoil c with
            | nil =>
                have hnil := (List.append_eq_nil_iff.mp hahead).2
                rw [hnil] at hlength
                cases hlength
            | cons b ahead =>
                rw [hahead] at h
                have hbs : ∀ d ∈ b :: ahead, 128 ≤ d.toNat := by
                  intro d hd
                  rw [← hahead] at hd
                  obtain hd | hd := List.mem_append.mp hd
                  · exact hextra d hd
                  · exact hbytes d hd
                obtain ⟨rfl, -⟩ := ih (greedy_char.mp hgreedy) hgreedyRight hright hvalueRest
                  (fun digits hdigits => hvalue' digits (List.mem_append_right _ hdigits))
                  (fun d hd => hbs d (List.mem_cons_of_mem _ hd)) (List.cons.inj h).2
                have hone := congrArg List.length hahead
                rw [List.length_append, List.length_singleton] at hone
                omega
      | hole digits =>
          obtain ⟨hne, hdigits, hno, hgreedyRest⟩ := hgreedy
          have htells := hvalue digits List.mem_cons_self
          rw [fill_hole] at h
          obtain rfl := htells.extra_eq_nil hextra h
          rw [source_hole, List.flatMap_cons, hascii '$' (by decide), List.flatMap_append,
            flatMap_digits hascii hdigits, List.singleton_append] at hsource
          cases pieces' with
          | nil => cases hsource
          | cons piece' rest' =>
              cases piece' with
              | char c' =>
                  obtain ⟨rfl, -⟩ := List.cons.inj hsource
                  rw [List.nil_append, fill_char] at h
                  exact absurd h htells.ne_dollar
              | hole digits' =>
                  obtain ⟨-, hdigits', hno', hgreedyRest'⟩ := hgreedy'
                  obtain ⟨rfl, htail⟩ := digits_eq hdigits' hdigits hno'
                    (noDigit_flatMap hascii hspoil hno) (List.cons.inj hsource).2
                  rw [List.nil_append, fill_hole] at h
                  obtain ⟨-, rfl, hrest⟩ := ih hgreedyRest hgreedyRest' htail hvalueRest
                    (fun digits hdigits => hvalue' digits (List.mem_cons_of_mem _ hdigits))
                    hextra (List.append_cancel_left h)
                  refine ⟨rfl, rfl, ?_⟩
                  intro d hd
                  rw [source_hole] at hd
                  obtain rfl | hd := List.mem_cons.mp hd
                  · decide
                  · obtain hd | hd := List.mem_append.mp hd
                    · exact lt_of_isDigit (hdigits d hd)
                    · exact hrest d hd

end

end Template
