import AnalyticsDB.Engine.MetadataSelect
import AnalyticsDB.Lib.Text
import Mathlib.Data.List.DropRight

/-!
# Literals in index predicates

The literals that an indexed select compares with are kept as texts: a literal is displayed, the
quotes around it are trimmed, doubled quotes are halved, and signs are put in front.  A text is
what its literal stands for when no quote of a string is lost and no sign is put before another
one.
-/

namespace IndexedSelect

/-! ### Literals -/

/-- The text of a number: it has no sign, no quote and no white space. -/
structure NumberText where
  text : String
  unsigned : text.toList.head? ≠ some '-'
  plain : ∀ c ∈ text.toList, c ≠ '\'' ∧ isWhiteSpace c = false
  deriving DecidableEq

/-- Values: others are placeholders and the strings that are quoted in other ways. -/
inductive Value where
  | number (n : NumberText)
  | singleQuotedString (s : String)
  | boolean (b : Bool)
  | null
  | other (display : String)
  deriving DecidableEq

inductive UnaryOperator where
  | minus | plus | other
  deriving DecidableEq

inductive BinaryOperator where
  | and | eq | gt | gtEq | lt | ltEq | other
  deriving DecidableEq

inductive Expr where
  | identifier (display : String)
  | compoundIdentifier (parts : List String)
  | value (value : Value)
  | unaryOp (op : UnaryOperator) (expr : Expr)
  | binaryOp (left : Expr) (op : BinaryOperator) (right : Expr)
  | inList (expr : Expr) (list : List Expr) (negated : Bool)
  | nested (expr : Expr)
  | other (display : String)

/-- A string between quotes, its own quotes doubled where they stand alone. -/
def displayString (s : String) : String :=
  String.ofList ('\'' :: Metadata.escapeQuoted '\'' (Char.ofNat 0) s.toList ++ ['\''])

def Value.display : Value → String
  | .number n => n.text
  | .singleQuotedString s => displayString s
  | .boolean b => if b then "true" else "false"
  | .null => "NULL"
  | .other display => display

/-- Every two quotes after one another are one. -/
def collapseQuotes : List Char → List Char
  | '\'' :: '\'' :: rest => '\'' :: collapseQuotes rest
  | c :: rest => c :: collapseQuotes rest
  | [] => []

/-- The characters without the quotes around them. -/
def trimQuotes (chars : List Char) : List Char :=
  (chars.dropWhile (· = '\'')).rdropWhile (· = '\'')

def normalizeIndexLiteral (value : String) : String :=
  String.ofList (collapseQuotes (trimQuotes (trimWhiteSpace value).toList))

/-- The text that is kept of a literal. -/
def literalIndexValue : Expr → Option String
  | .value value => some (normalizeIndexLiteral value.display)
  | .unaryOp op expr => do
    let value ← literalIndexValue expr
    match op with
    | .minus => some ("-" ++ value)
    | .plus => some value
    | .other => none
  | _ => none

/-! ### The quotes of a string -/

/-- The quotes of a string stand inside of it, and none next to another. -/
def QuotesInside (chars : List Char) : Prop :=
  chars.head? ≠ some '\'' ∧ chars.getLast? ≠ some '\''
    ∧ chars.IsChain (fun a b => a = '\'' → b ≠ '\'')

section

variable {chars : List Char}

@[simp] theorem collapseQuotes_quotes (rest : List Char) :
  collapseQuotes ('\'' :: '\'' :: rest) = '\'' :: collapseQuotes rest
  := rfl

theorem collapseQuotes_cons {c : Char} {rest : List Char} (h : c = '\'' → rest.head? ≠ some '\'') :
  collapseQuotes (c :: rest) = c :: collapseQuotes rest
  := by
  rw [collapseQuotes.eq_def]
  split
  · rename_i heq
    obtain ⟨rfl, rfl⟩ := List.cons.inj heq
    exact absurd rfl (h rfl)
  · rename_i heq
    obtain ⟨rfl, rfl⟩ := List.cons.inj heq
    rfl
  · rename_i heq
    cases heq

/-- A quote in front adds at most a quote. -/
theorem collapseQuotes_quote_sublist (chars : List Char) :
  (collapseQuotes chars).Sublist (collapseQuotes ('\'' :: chars))
    ∧ (collapseQuotes ('\'' :: chars)).Sublist ('\'' :: collapseQuotes chars)
  := by
  induction chars with
  | nil => simp [collapseQuotes]
  | cons c rest ih =>
      by_cases hc : c = '\''
      · subst hc
        rw [collapseQuotes_quotes]
        exact ⟨ih.2, ih.1.cons_cons _⟩
      · rw [collapseQuotes_cons (c := '\'') (by simpa using hc)]
        exact ⟨List.sublist_cons_self _ _, List.Sublist.refl _⟩

/-- A quote at the end takes nothing away. -/
theorem collapseQuotes_append_quote (chars : List Char) :
  (collapseQuotes chars).Sublist (collapseQuotes (chars ++ ['\'']))
  := by
  induction chars using collapseQuotes.induct with
  | case1 rest ih => exact ih.cons_cons _
  | case2 c rest hne ih =>
      have hhead : c = '\'' → rest.head? ≠ some '\'' := by
        intro hc hrest
        obtain ⟨rest', rfl⟩ := List.head?_eq_some_iff.mp hrest
        exact hne rest' hc rfl
      rw [collapseQuotes_cons hhead]
      cases rest with
      | nil =>
          by_cases hc : c = '\''
          · subst hc
            exact List.Sublist.refl _
          · rw [List.singleton_append, collapseQuotes_cons (fun h => absurd h hc)]
            exact ih.cons_cons _
      | cons d rest =>
          have hhead' : c = '\'' → (d :: rest ++ ['\'']).head? ≠ some '\'' := by
            simpa using hhead
          rw [List.cons_append, collapseQuotes_cons hhead']
          exact ih.cons_cons _
  | case3 => simp [collapseQuotes]

/-- Quotes that are trimmed at the start. -/
theorem collapseQuotes_dropWhile (chars : List Char) :
  (collapseQuotes (chars.dropWhile (· = '\''))).Sublist (collapseQuotes chars)
  := by
  induction chars with
  | nil => exact List.Sublist.refl _
  | cons c rest ih =>
      by_cases hc : c = '\''
      · subst hc
        rw [List.dropWhile_cons_of_pos (by simp)]
        exact ih.trans (collapseQuotes_quote_sublist rest).1
      · rw [List.dropWhile_cons_of_neg (by simpa using hc)]

/-- Quotes that are trimmed at the end. -/
theorem collapseQuotes_rdropWhile (chars : List Char) :
  (collapseQuotes (chars.rdropWhile (· = '\''))).Sublist (collapseQuotes chars)
  := by
  induction chars using List.reverseRecOn with
  | nil => exact List.Sublist.refl _
  | append_singleton chars c ih =>
      by_cases hc : c = '\''
      · subst hc
        rw [List.rdropWhile_concat_pos _ _ _ (by simp)]
        exact ih.trans (collapseQuotes_append_quote chars)
      · rw [List.rdropWhile_concat_neg _ _ _ (by simpa using hc)]

theorem collapseQuotes_trimQuotes (chars : List Char) :
  (collapseQuotes (trimQuotes chars)).Sublist (collapseQuotes chars)
  := (collapseQuotes_rdropWhile _).trans (collapseQuotes_dropWhile _)

/-- The quotes a string is displayed between are trimmed. -/
theorem trimQuotes_quoted (chars : List Char) :
  trimQuotes ('\'' :: chars ++ ['\'']) = trimQuotes chars
  := by
  rw [trimQuotes, List.cons_append, List.dropWhile_cons_of_pos (by simp)]
  by_cases h : chars.dropWhile (· = '\'') = []
  · have hall : (chars ++ ['\'']).dropWhile (· = '\'') = [] := by
      rw [List.dropWhile_eq_nil_iff] at h ⊢
      intro c hc
      obtain hc | hc := List.mem_append.mp hc
      · exact h c hc
      · simpa using hc
    rw [trimQuotes, h, hall]
  · rw [List.dropWhile_append, if_neg (by simpa using h),
      List.rdropWhile_concat_pos _ _ _ (by simp), trimQuotes]

/-! ### Quotes that are doubled -/

theorem escapeQuoted_head? (previous : Char) (chars : List Char) :
  (Metadata.escapeQuoted '\'' previous chars).head? = chars.head?
  := by
  fun_induction Metadata.escapeQuoted '\'' previous chars <;> simp_all

theorem escapeQuoted_getLast? (previous : Char) (chars : List Char) :
  (Metadata.escapeQuoted '\'' previous chars).getLast? = chars.getLast?
  := by
  fun_induction Metadata.escapeQuoted '\'' previous chars <;> simp_all [List.getLast?_cons]

/-- Doubling quotes and halving them again adds nothing. -/
theorem collapseQuotes_escape_sublist (previous : Char) (chars : List Char) :
  (collapseQuotes (Metadata.escapeQuoted '\'' previous chars)).Sublist chars
  := by
  fun_induction Metadata.escapeQuoted '\'' previous chars with
  | case1 => exact List.Sublist.refl _
  | case2 rest ih => exact (collapseQuotes_quote_sublist _).2.trans (ih.cons_cons _)
  | case3 previous hprevious => exact List.Sublist.refl _
  | case4 previous hprevious rest ih => exact (ih.cons _).cons_cons _
  | case5 previous hprevious next rest hnext ih => exact ih.cons_cons _
  | case6 previous c rest hc ih =>
      rw [collapseQuotes_cons (fun h => absurd h hc)]
      exact ih.cons_cons _

/-- A string without quotes next to each other is found again. -/
theorem collapseQuotes_escape_eq (previous : Char) (chars : List Char)
    (h : chars.IsChain (fun a b => a = '\'' → b ≠ '\'')) :
  collapseQuotes (Metadata.escapeQuoted '\'' previous chars) = chars
  := by
  fun_induction Metadata.escapeQuoted '\'' previous chars with
  | case1 => rfl
  | case2 rest ih =>
      have hhead : rest.head? ≠ some '\'' := by
        intro hrest
        obtain ⟨rest', rfl⟩ := List.head?_eq_some_iff.mp hrest
        exact (List.isChain_cons_cons.mp h).1 rfl rfl
      rw [collapseQuotes_cons, ih h.of_cons]
      intro _
      rwa [escapeQuoted_head?]
  | case3 previous hprevious => rfl
  | case4 previous hprevious rest ih => exact absurd rfl ((List.isChain_cons_cons.mp h).1 rfl)
  | case5 previous hprevious next rest hnext ih =>
      rw [collapseQuotes_quotes, ih h.of_cons]
  | case6 previous c rest hc ih =>
      rw [collapseQuotes_cons (fun h => absurd h hc), ih h.of_cons]

theorem isChain_cons_of {c : Char} {rest : List Char}
    (hrest : rest.IsChain (fun a b => a = '\'' → b ≠ '\''))
    (hc : c = '\'' → rest.head? ≠ some '\'') :
  (c :: rest).IsChain (fun a b => a = '\'' → b ≠ '\'')
  := by
  cases rest with
  | nil => exact .singleton _
  | cons d rest => exact List.isChain_cons_cons.mpr ⟨by simpa using hc, hrest⟩

/-- A string with quotes next to each other is not. -/
theorem isChain_of_collapseQuotes_escape (previous : Char) (chars : List Char)
    (h : collapseQuotes (Metadata.escapeQuoted '\'' previous chars) = chars) :
  chars.IsChain (fun a b => a = '\'' → b ≠ '\'')
  := by
  fun_induction Metadata.escapeQuoted '\'' previous chars with
  | case1 => exact .nil
  | case2 rest ih =>
      have hsublist := collapseQuotes_escape_sublist '\\' rest
      have hrest : collapseQuotes (Metadata.escapeQuoted '\'' '\\' rest) = rest := by
        apply hsublist.eq_of_length_le
        have hlength := (collapseQuotes_quote_sublist
          (Metadata.escapeQuoted '\'' '\\' rest)).2.length_le
        rw [h, List.length_cons, List.length_cons] at hlength
        omega
      apply isChain_cons_of (ih hrest)
      intro _ hhead
      obtain ⟨rest', rfl⟩ := List.head?_eq_some_iff.mp hhead
      have hescape : Metadata.escapeQuoted '\'' '\\' ('\'' :: rest')
          = '\'' :: Metadata.escapeQuoted '\'' '\\' rest' := by
        rw [Metadata.escapeQuoted.eq_def]
        simp
      rw [hescape, collapseQuotes_quotes] at h
      have hlength := (collapseQuotes_escape_sublist '\\' rest').length_le
      rw [(List.cons.inj h).2, List.length_cons] at hlength
      omega
  | case3 previous hprevious => exact .singleton _
  | case4 previous hprevious rest ih =>
      rw [collapseQuotes_quotes] at h
      have hlength := (collapseQuotes_escape_sublist '\'' rest).length_le
      rw [(List.cons.inj h).2, List.length_cons] at hlength
      omega
  | case5 previous hprevious next rest hnext ih =>
      rw [collapseQuotes_quotes] at h
      exact isChain_cons_of (ih (List.cons.inj h).2) (by simpa using hnext)
  | case6 previous c rest hc ih =>
      rw [collapseQuotes_cons (fun h => absurd h hc)] at h
      exact isChain_cons_of (ih (List.cons.inj h).2) (fun h => absurd h hc)

end

/-! ### The texts of literals -/

/-- The characters that are kept of a string. -/
def keptChars (chars : List Char) : List Char :=
  collapseQuotes (trimQuotes (Metadata.escapeQuoted '\'' (Char.ofNat 0) chars))

/-- What is kept of a string is a part of it. -/
theorem keptChars_sublist (chars : List Char) : (keptChars chars).Sublist chars
  := (collapseQuotes_trimQuotes _).trans (collapseQuotes_escape_sublist _ _)

theorem collapseQuotes_head? (chars : List Char) : (collapseQuotes chars).head? = chars.head?
  := by
  cases chars with
  | nil => rfl
  | cons c rest =>
      rw [collapseQuotes.eq_def]
      split <;> simp_all

theorem collapseQuotes_getLast? (chars : List Char) :
  (collapseQuotes chars).getLast? = chars.getLast?
  := by
  induction chars using collapseQuotes.induct with
  | case1 rest ih => simp [List.getLast?_cons, ih]
  | case2 c rest hne ih =>
      rw [collapseQuotes_cons, List.getLast?_cons, List.getLast?_cons, ih]
      intro hc hrest
      obtain ⟨rest', rfl⟩ := List.head?_eq_some_iff.mp hrest
      exact hne rest' hc rfl
  | case3 => rfl

theorem trimQuotes_head? (chars : List Char) : (trimQuotes chars).head? ≠ some '\''
  := by
  intro h
  obtain ⟨rest, hrest⟩ := List.head?_eq_some_iff.mp h
  have hprefix := List.rdropWhile_prefix (fun c => decide (c = '\''))
    (l := chars.dropWhile (fun c => decide (c = '\'')))
  obtain ⟨tail, htail⟩ := hprefix
  have hhead : (chars.dropWhile (fun c => decide (c = '\''))).head? = some '\'' := by
    rw [← htail]
    change (trimQuotes chars ++ tail).head? = some '\''
    rw [hrest]
    rfl
  have hnot := List.head?_dropWhile_not (fun c => decide (c = '\'')) chars
  rw [hhead] at hnot
  simp at hnot

theorem trimQuotes_getLast? (chars : List Char) : (trimQuotes chars).getLast? ≠ some '\''
  := by
  intro h
  obtain ⟨hne, hlast⟩ := List.mem_getLast?_eq_getLast h
  exact List.rdropWhile_last_not (fun c => decide (c = '\'')) _ hne (decide_eq_true hlast.symm)

theorem trimQuotes_eq_self {chars : List Char} (hhead : chars.head? ≠ some '\'')
    (hlast : chars.getLast? ≠ some '\'') :
  trimQuotes chars = chars
  := by
  have hdrop : chars.dropWhile (fun c => decide (c = '\'')) = chars := by
    cases chars with
    | nil => rfl
    | cons c rest => exact List.dropWhile_cons_of_neg (by simpa using hhead)
  rw [trimQuotes, hdrop, List.rdropWhile_eq_self_iff]
  intro hne hquote
  apply hlast
  rw [List.getLast?_eq_some_getLast hne, of_decide_eq_true hquote]

/-- A string is kept just when its quotes stand inside. -/
theorem keptChars_eq_iff (chars : List Char) : keptChars chars = chars ↔ QuotesInside chars
  := by
  constructor
  · intro h
    refine ⟨?_, ?_, ?_⟩
    · rw [← h, keptChars, collapseQuotes_head?]
      exact trimQuotes_head? _
    · rw [← h, keptChars, collapseQuotes_getLast?]
      exact trimQuotes_getLast? _
    · apply isChain_of_collapseQuotes_escape (Char.ofNat 0)
      apply (collapseQuotes_escape_sublist _ _).eq_of_length_le
      have hlength := (collapseQuotes_trimQuotes
        (Metadata.escapeQuoted '\'' (Char.ofNat 0) chars)).length_le
      rw [← keptChars, h] at hlength
      exact hlength
  · rintro ⟨hhead, hlast, hchain⟩
    rw [← escapeQuoted_head? (Char.ofNat 0)] at hhead
    rw [← escapeQuoted_getLast? (Char.ofNat 0)] at hlast
    have htrim := trimQuotes_eq_self hhead hlast
    rw [keptChars, htrim, collapseQuotes_escape_eq _ _ hchain]

theorem collapseQuotes_of_none {chars : List Char} (h : ∀ c ∈ chars, c ≠ '\'') :
  collapseQuotes chars = chars
  := by
  induction chars with
  | nil => rfl
  | cons c rest ih =>
      rw [List.forall_mem_cons] at h
      rw [collapseQuotes_cons (fun hc => absurd hc h.1), ih h.2]

theorem literalIndexValue_string (s : String) :
  literalIndexValue (.value (.singleQuotedString s)) = some (String.ofList (keptChars s.toList))
  := by
  have htrim : trimWhiteSpace (displayString s) = displayString s := by
    apply trimWhiteSpace_of_ends
    · intro c hc
      rw [displayString, String.toList_ofList, List.cons_append, List.head?_cons] at hc
      cases hc
      decide
    · intro c hc
      rw [displayString, String.toList_ofList, List.getLast?_concat] at hc
      cases hc
      decide
  rw [literalIndexValue, Value.display, normalizeIndexLiteral, htrim, displayString,
    String.toList_ofList, trimQuotes_quoted]
  rfl

theorem literalIndexValue_number (n : NumberText) :
  literalIndexValue (.value (.number n)) = some n.text
  := by
  have htrim : trimWhiteSpace n.text = n.text := by
    apply trimWhiteSpace_of_ends
    · exact fun c hc => (n.plain c (List.mem_of_head? hc)).2
    · exact fun c hc => (n.plain c (List.mem_of_getLast? hc)).2
  have hquotes : trimQuotes n.text.toList = n.text.toList := by
    apply trimQuotes_eq_self
    · intro h
      exact (n.plain _ (List.mem_of_head? h)).1 rfl
    · intro h
      exact (n.plain _ (List.mem_of_getLast? h)).1 rfl
  have hcollapse := collapseQuotes_of_none (fun c hc => (n.plain c hc).1)
  rw [literalIndexValue, Value.display, normalizeIndexLiteral, htrim, hquotes, hcollapse,
    String.ofList_toList]

/-! ### What a literal stands for -/

/-- The value of a literal: a sign before a number belongs to it, and a sign before NULL does not
matter; others are placeholders, other strings, and signs before what is no number. -/
inductive LiteralValue where
  | null
  | boolean (b : Bool)
  | number (negative : Bool) (n : NumberText)
  | string (s : String)
  | other (expr : Expr)

def literalValue : Expr → LiteralValue
  | .value (.number n) => .number false n
  | .value (.singleQuotedString s) => .string s
  | .value (.boolean b) => .boolean b
  | .value .null => .null
  | .unaryOp .minus expr =>
    match literalValue expr with
    | .number negative n => .number (!negative) n
    | .null => .null
    | _ => .other (.unaryOp .minus expr)
  | .unaryOp .plus expr =>
    match literalValue expr with
    | .number negative n => .number negative n
    | .null => .null
    | _ => .other (.unaryOp .plus expr)
  | expr => .other expr

/-- The number that characters are the text of. -/
def NumberText.ofChars (chars : List Char) : Option NumberText :=
  -- the characters are checked one after the other
  letI := List.decidableBAll (fun c => c ≠ '\'' ∧ isWhiteSpace c = false) chars
  if h : chars.head? ≠ some '-' ∧ ∀ c ∈ chars, c ≠ '\'' ∧ isWhiteSpace c = false then
    some ⟨String.ofList chars, by rw [String.toList_ofList]; exact h.1,
      by rw [String.toList_ofList]; exact h.2⟩
  else none

/-- Read a number with a sign or without. -/
def readNumber (text : String) : Option LiteralValue :=
  match text.toList with
  | '-' :: digits => (NumberText.ofChars digits).map (.number true)
  | digits => (NumberText.ofChars digits).map (.number false)

/-- A text as it is read back for the literal it was kept of. -/
def readBack (literal : Expr) (text : String) : Option LiteralValue :=
  match literalValue literal with
  | .null => if text = "NULL" then some .null else none
  | .boolean _ =>
    if text = "true" then some (.boolean true)
    else if text = "false" then some (.boolean false) else none
  | .number _ _ => readNumber text
  | .string _ => some (.string text)
  | .other _ => none

/-- What is kept of a literal is what it stands for. -/
def Faithful (literal : Expr) : Prop :=
  ∃ text, literalIndexValue literal = some text
    ∧ readBack literal text = some (literalValue literal)

/-- The number of the signs that turn a literal negative. -/
def minusCount : Expr → Nat
  | .unaryOp .minus expr => minusCount expr + 1
  | .unaryOp .plus expr => minusCount expr
  | _ => 0

/-- A literal of which nothing is lost: NULL without a minus, a boolean, a number with one minus at
most, or a string whose quotes stand inside. -/
def Plain (literal : Expr) : Prop :=
  match literalValue literal with
  | .null => minusCount literal = 0
  | .boolean _ => True
  | .number _ _ => minusCount literal ≤ 1
  | .string s => QuotesInside s.toList
  | .other _ => False

theorem NumberText.ofChars_text (n : NumberText) : NumberText.ofChars n.text.toList = some n
  := by
  rw [NumberText.ofChars, dif_pos ⟨n.unsigned, n.plain⟩]
  simp

theorem readNumber_text (n : NumberText) : readNumber n.text = some (.number false n)
  := by
  rw [readNumber]
  split
  · rename_i digits heq
    exact absurd (by rw [heq]; rfl) n.unsigned
  · rw [NumberText.ofChars_text]
    rfl

theorem readNumber_minus (n : NumberText) : readNumber ("-" ++ n.text) = some (.number true n)
  := by
  have htext : ("-" ++ n.text).toList = '-' :: n.text.toList := by
    rw [String.toList_append]
    rfl
  rw [readNumber, htext]
  simp [NumberText.ofChars_text]

theorem readNumber_minus_minus (text : String) : readNumber ("-" ++ ("-" ++ text)) = none
  := by
  have htext : ("-" ++ ("-" ++ text)).toList = '-' :: '-' :: text.toList := by
    rw [String.toList_append, String.toList_append]
    rfl
  rw [readNumber, htext]
  simp [NumberText.ofChars]

/-- Some signs before a text. -/
def signed : Nat → String → String
  | 0, text => text
  | n + 1, text => "-" ++ signed n text

theorem literalIndexValue_of_number {literal : Expr} {negative : Bool} {n : NumberText}
    (h : literalValue literal = .number negative n) :
  literalIndexValue literal = some (signed (minusCount literal) n.text)
    ∧ (negative = true ↔ minusCount literal % 2 = 1)
  := by
  fun_induction literalValue literal generalizing negative with
  | case1 m =>
      cases h
      refine ⟨literalIndexValue_number _, ?_⟩
      simp [minusCount]
  | case5 expr negative' m hexpr ih =>
      cases h
      obtain ⟨htext, hsign⟩ := ih hexpr
      refine ⟨?_, ?_⟩
      · simp [literalIndexValue, htext, minusCount, signed]
      · rw [minusCount]
        cases negative' <;> simp at hsign ⊢ <;> omega
  | case8 expr negative' m hexpr ih =>
      cases h
      obtain ⟨htext, hsign⟩ := ih hexpr
      exact ⟨by simp [literalIndexValue, htext, minusCount], hsign⟩
  | _ => cases h

theorem literalIndexValue_of_null {literal : Expr} (h : literalValue literal = .null) :
  literalIndexValue literal = some (signed (minusCount literal) "NULL")
  := by
  fun_induction literalValue literal with
  | case4 => decide
  | case6 expr hexpr ih => simp [literalIndexValue, ih hexpr, minusCount, signed]
  | case9 expr hexpr ih => simp [literalIndexValue, ih hexpr, minusCount]
  | _ => cases h

theorem eq_of_literalValue_string {literal : Expr} {s : String}
    (h : literalValue literal = .string s) :
  literal = .value (.singleQuotedString s)
  := by
  fun_cases literalValue literal with
  | case2 =>
      cases h
      rfl
  | _ => simp_all [literalValue]

theorem eq_of_literalValue_boolean {literal : Expr} {b : Bool}
    (h : literalValue literal = .boolean b) :
  literal = .value (.boolean b)
  := by
  fun_cases literalValue literal with
  | case3 =>
      cases h
      rfl
  | _ => simp_all [literalValue]

theorem signed_succ_ne_null (k : Nat) : signed (k + 1) "NULL" ≠ "NULL"
  := by
  intro h
  have hlist := congrArg String.toList h
  rw [signed, String.toList_append] at hlist
  exact absurd (List.cons.inj hlist).1 (by decide)

theorem literalIndexValue_boolean (b : Bool) :
  literalIndexValue (.value (.boolean b)) = some (if b then "true" else "false")
  := by
  cases b <;> decide

/-- How a text is read back for a literal. -/
theorem readBack_of_number {literal : Expr} {negative : Bool} {n : NumberText}
    (h : literalValue literal = .number negative n) :
  readBack literal (signed (minusCount literal) n.text)
    = if minusCount literal ≤ 1 then some (.number negative n) else none
  := by
  obtain ⟨-, hsign⟩ := literalIndexValue_of_number h
  rw [readBack, h]
  simp only
  match hk : minusCount literal with
  | 0 =>
      have hpositive : negative = false := by simpa [hk] using hsign
      rw [signed, readNumber_text, hpositive, if_pos (Nat.zero_le 1)]
  | 1 =>
      have hnegative : negative = true := by simpa [hk] using hsign
      rw [signed, signed, readNumber_minus, hnegative, if_pos le_rfl]
  | k + 2 => rw [signed, signed, readNumber_minus_minus, if_neg (by omega)]

/-- What is kept of a literal is what it stands for just when nothing is lost of it. -/
theorem faithful_iff_plain (literal : Expr) : Faithful literal ↔ Plain literal
  := by
  cases hvalue : literalValue literal with
  | null =>
      have htext := literalIndexValue_of_null hvalue
      simp only [Faithful, Plain, hvalue, htext, readBack, Option.some.injEq, exists_eq_left']
      cases hk : minusCount literal with
      | zero => simp [signed]
      | succ k => simp [signed_succ_ne_null]
  | boolean b =>
      obtain rfl := eq_of_literalValue_boolean hvalue
      simp only [Faithful, Plain, hvalue, literalIndexValue_boolean, readBack, Option.some.injEq,
        exists_eq_left', iff_true]
      cases b <;> simp
  | number negative n =>
      obtain ⟨htext, -⟩ := literalIndexValue_of_number hvalue
      have hread := readBack_of_number hvalue
      simp only [Faithful, Plain, hvalue, htext, Option.some.injEq, exists_eq_left', hread]
      split <;> simp_all
  | string s =>
      obtain rfl := eq_of_literalValue_string hvalue
      simp only [Faithful, Plain, hvalue, literalIndexValue_string, readBack, Option.some.injEq,
        exists_eq_left', LiteralValue.string.injEq, ← keptChars_eq_iff]
      rw [← String.toList_inj, String.toList_ofList]
  | other expr =>
      simp only [Faithful, Plain, hvalue, readBack]
      simp

/-- A text that is read back although something of the literal is lost is the text of a string. -/
theorem string_of_not_faithful {literal : Expr} {text : String} {value : LiteralValue}
    (htext : literalIndexValue literal = some text) (hread : readBack literal text = some value)
    (h : ¬ Faithful literal) :
  ∃ s, literalValue literal = .string s ∧ value = .string (String.ofList (keptChars s.toList))
    ∧ keptChars s.toList ≠ s.toList
  := by
  have hne : value ≠ literalValue literal := by
    rintro rfl
    exact h ⟨text, htext, hread⟩
  cases hvalue : literalValue literal with
  | null =>
      rw [readBack, hvalue] at hread
      simp only at hread
      split at hread
      · cases hread
        exact absurd hvalue.symm hne
      · cases hread
  | boolean b =>
      obtain rfl := eq_of_literalValue_boolean hvalue
      rw [faithful_iff_plain, Plain, hvalue] at h
      exact absurd trivial h
  | number negative n =>
      obtain ⟨htext', -⟩ := literalIndexValue_of_number hvalue
      rw [htext] at htext'
      cases htext'
      rw [readBack_of_number hvalue] at hread
      split at hread
      · cases hread
        exact absurd hvalue.symm hne
      · cases hread
  | string s =>
      obtain rfl := eq_of_literalValue_string hvalue
      rw [literalIndexValue_string] at htext
      cases htext
      rw [readBack, hvalue] at hread
      cases hread
      refine ⟨s, rfl, rfl, ?_⟩
      intro hkept
      rw [hvalue, hkept, String.ofList_toList] at hne
      exact hne rfl
  | other expr =>
      rw [readBack, hvalue] at hread
      cases hread

end IndexedSelect
