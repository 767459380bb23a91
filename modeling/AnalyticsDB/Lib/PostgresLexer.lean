import AnalyticsDB.Lib.Scanner

/-!
# The tokens of SQL

Where the tokens of a text in PostgreSQL's SQL begin and end: names and keywords, numbers,
string constants (with doubled quotes, with escapes after an `E`, or between dollar quotes),
quoted identifiers, comments to the end of the line and nested ones, parameters `$n`, operators
and other symbols.  Operators of `+ - * / < > =` are taken apart into their characters, which is
where PostgreSQL would cut them before a sign.
-/

namespace PostgresLexer

/-- What a token has turned out to be so far. -/
inductive Mode where
  /-- A symbol, white space, or another token that ended with its last character. -/
  | closed
  /-- A minus sign, which another one makes a comment. -/
  | dash
  /-- A slash, which an asterisk makes a comment. -/
  | slash
  /-- An operator with one of the characters of `isOperatorChar`. -/
  | operator
  /-- Such an operator that ends in a minus sign. -/
  | operatorDash
  /-- Such an operator that ends in a slash. -/
  | operatorSlash
  | word
  /-- The letter E, which a quote makes a string with escapes. -/
  | escapeLetter
  /-- The letter B, X or N, which a quote makes a string. -/
  | quoteLetter
  /-- A period, which a digit makes a number. -/
  | period
  | number
  | string
  /-- A string after a quote, which another one continues. -/
  | stringQuote
  | escapeString
  /-- A string with escapes after a backslash. -/
  | escapeBackslash
  | escapeQuote
  | identifier
  | identifierQuote
  | lineComment
  | blockComment (depth : Nat)
  | blockStar (depth : Nat)
  | blockSlash (depth : Nat)
  /-- A dollar sign, which digits make a parameter and a second one a quote. -/
  | dollar
  | parameter
  /-- A dollar sign and the tag that follows it, last character first. -/
  | dollarTag (tag : List Char)
  /-- A string after its opening dollar quote, and what was read of it, last character first. -/
  | dollarString (tag read : List Char)
  deriving DecidableEq, Repr

/-- The characters a name can start with. -/
def isNameStart (c : Char) : Bool := c.isAlpha || c == '_' || 128 ≤ c.toNat

/-- The characters of names. -/
def isNameChar (c : Char) : Bool := isNameStart c || c.isDigit || c == '$'

/-- The characters of operators that may end in a sign. -/
def isOperatorChar (c : Char) : Bool := "~!@#%^&|`?".toList.contains c

/-- The other characters of operators. -/
def isPlainOperatorChar (c : Char) : Bool := "+-*/<>=".toList.contains c

/-- The mode in which a character starts a token. -/
def start (c : Char) : Mode :=
  if c == '\'' then .string
  else if c == '"' then .identifier
  else if c == '$' then .dollar
  else if c == '-' then .dash
  else if c == '/' then .slash
  else if c == '.' then .period
  else if c.isDigit then .number
  else if c == 'e' || c == 'E' then .escapeLetter
  else if "bBxXnN".toList.contains c then .quoteLetter
  else if isNameStart c then .word
  else if isOperatorChar c then .operator
  else .closed

/-- The mode in which a character continues an operator. -/
def nextOperator (c : Char) : Option Mode :=
  if c == '-' then some .operatorDash
  else if c == '/' then some .operatorSlash
  else if isOperatorChar c || isPlainOperatorChar c then some .operator
  else none

/-- The mode in which a character continues a name. -/
def nextWord (c : Char) : Option Mode := if isNameChar c then some .word else none

/-- The mode in which a character continues a block comment. -/
def nextBlock (depth : Nat) (c : Char) : Mode :=
  if c == '*' then .blockStar depth
  else if c == '/' then .blockSlash depth
  else .blockComment depth

/-- The mode in which a character continues a token, if it does. -/
def next : Mode → Char → Option Mode
  | .closed, _ => none
  | .dash, c => if c == '-' then some .lineComment else none
  | .slash, c => if c == '*' then some (.blockComment 0) else none
  | .operator, c => nextOperator c
  | .operatorDash, c => if c == '-' then some .lineComment else nextOperator c
  | .operatorSlash, c => if c == '*' then some (.blockComment 0) else nextOperator c
  | .word, c => nextWord c
  | .escapeLetter, c => if c == '\'' then some .escapeString else nextWord c
  | .quoteLetter, c => if c == '\'' then some .string else nextWord c
  | .period, c => if c.isDigit then some .number else none
  | .number, c => if isNameChar c || c == '.' then some .number else none
  | .string, c => some (if c == '\'' then .stringQuote else .string)
  | .stringQuote, c => if c == '\'' then some .string else none
  | .escapeString, c =>
    some (if c == '\'' then .escapeQuote else if c == '\\' then .escapeBackslash
      else .escapeString)
  | .escapeBackslash, _ => some .escapeString
  | .escapeQuote, c => if c == '\'' then some .escapeString else none
  | .identifier, c => some (if c == '"' then .identifierQuote else .identifier)
  | .identifierQuote, c => if c == '"' then some .identifier else none
  | .lineComment, c => if c == '\n' || c == '\r' then none else some .lineComment
  | .blockComment depth, c => some (nextBlock depth c)
  | .blockStar depth, c =>
    some (if c == '/' then (match depth with | 0 => .closed | depth + 1 => .blockComment depth)
      else nextBlock depth c)
  | .blockSlash depth, c =>
    some (if c == '*' then .blockComment (depth + 1) else nextBlock depth c)
  | .dollar, c =>
    if c.isDigit then some .parameter
    else if c == '$' then some (.dollarString [] [])
    else if isNameStart c then some (.dollarTag [c])
    else none
  | .parameter, c => if c.isDigit then some .parameter else none
  | .dollarTag tag, c =>
    if c == '$' then some (.dollarString tag [])
    else if isNameStart c || c.isDigit then some (.dollarTag (c :: tag))
    else none
  | .dollarString tag read, c =>
    some (if ('$' :: tag ++ ['$']).isPrefixOf (c :: read) then .closed
      else .dollarString tag (c :: read))

/-- The scanner of SQL. -/
def lexer : Scanner Char Mode := ⟨start, next⟩

/-- The tokens of a text. -/
def tokens (sql : List Char) : List (Token Char Mode) := lexer.tokens sql

example : (tokens "SELECT $1, '$2' -- $3".toList).map (String.ofList ·.text)
    = ["SELECT", " ", "$1", ",", " ", "'$2'", " ", "-- $3"] := by decide

example : (tokens "E'\\'$1' $a$it's $2$a$ /*/* $3 */*/\"$4\"".toList).map (String.ofList ·.text)
    = ["E'\\'$1'", " ", "$a$it's $2$a$", " ", "/*/* $3 */*/", "\"$4\""] := by decide

/-- What the text of a token is when it is a dollar sign or a parameter. -/
def DollarText (mode : Mode) (text : List Char) : Prop :=
  (mode = .dollar → text = ['$'])
    ∧ (mode = .parameter →
        ∃ digits, text = '$' :: digits ∧ digits ≠ [] ∧ ∀ d ∈ digits, d.isDigit = true)

theorem ite_ne {α : Type} {p : Prop} [Decidable p] {a b x : α} (ha : p → a ≠ x) (hb : b ≠ x) :
  (if p then a else b) ≠ x
  := by
  split
  · rename_i h
    exact ha h
  · exact hb

theorem start_eq_dollar {c : Char} (h : start c = .dollar) :
  c = '$'
  := by
  by_contra hc
  revert h
  rw [start]
  repeat' apply ite_ne
  all_goals simp [hc]

theorem start_ne_parameter (c : Char) :
  start c ≠ .parameter
  := by
  rw [start]
  repeat' apply ite_ne
  all_goals simp

theorem start_dollarText (c : Char) :
  DollarText (start c) [c]
  := by
  constructor
  · intro h
    rw [start_eq_dollar h]
  · intro h
    exact absurd h (start_ne_parameter c)

theorem nextBlock_ne (depth : Nat) (c : Char) :
  nextBlock depth c ≠ .dollar ∧ nextBlock depth c ≠ .parameter
  := by
  simp only [nextBlock]
  repeat' split
  all_goals simp

theorem nextOperator_ne (c : Char) :
  nextOperator c ≠ some .dollar ∧ nextOperator c ≠ some .parameter
  := by
  simp only [nextOperator]
  repeat' split
  all_goals simp

theorem nextWord_ne (c : Char) :
  nextWord c ≠ some .dollar ∧ nextWord c ≠ some .parameter
  := by
  simp only [nextWord]
  split
  all_goals simp

/-- Only a digit after a dollar sign or a parameter makes a parameter, and nothing that
continues a token is a dollar sign. -/
theorem next_eq_parameter {m m' : Mode} {c : Char} (h : next m c = some m') :
  m' ≠ .dollar ∧ (m' = .parameter → c.isDigit = true ∧ (m = .dollar ∨ m = .parameter))
  := by
  cases m with
  | dollar | parameter =>
      dsimp only [next] at h
      repeat' split at h
      all_goals cases h
      all_goals simp_all
  | operator | operatorDash | operatorSlash =>
      dsimp only [next] at h
      repeat' split at h
      all_goals first
        | cases h; simp
        | exact ⟨fun hm => (nextOperator_ne c).1 (hm ▸ h),
            fun hm => absurd (hm ▸ h) (nextOperator_ne c).2⟩
  | word | escapeLetter | quoteLetter =>
      dsimp only [next] at h
      repeat' split at h
      all_goals first
        | cases h; simp
        | exact ⟨fun hm => (nextWord_ne c).1 (hm ▸ h),
            fun hm => absurd (hm ▸ h) (nextWord_ne c).2⟩
  | blockComment depth =>
      cases h
      exact ⟨(nextBlock_ne depth c).1, fun hm => absurd hm (nextBlock_ne depth c).2⟩
  | blockStar depth | blockSlash depth =>
      have hblock := nextBlock_ne depth c
      simp only [next, Option.some.injEq] at h
      subst h
      repeat' split
      all_goals simp_all
  | _ =>
      dsimp only [next] at h
      repeat' split at h
      all_goals cases h
      all_goals simp

theorem next_dollarText {m m' : Mode} {read : List Char} {c : Char} (hread : DollarText m read)
    (h : next m c = some m') :
  DollarText m' (read ++ [c])
  := by
  obtain ⟨hdollar, hparameter⟩ := next_eq_parameter h
  refine ⟨fun hm => absurd hm hdollar, ?_⟩
  intro hm
  obtain ⟨hdigit, hbefore⟩ := hparameter hm
  obtain hbefore | hbefore := hbefore
  · rw [hread.1 hbefore]
    refine ⟨[c], rfl, by simp, ?_⟩
    intro d hd
    obtain rfl := List.mem_singleton.mp hd
    exact hdigit
  · obtain ⟨digits, rfl, -, hdigits⟩ := hread.2 hbefore
    refine ⟨digits ++ [c], rfl, by simp, ?_⟩
    intro d hd
    obtain hd | hd := List.mem_append.mp hd
    · exact hdigits d hd
    · obtain rfl := List.mem_singleton.mp hd
      exact hdigit

/-- A parameter is a dollar sign with digits. -/
theorem text_of_parameter {sql : List Char} {token : Token Char Mode} (h : token ∈ tokens sql)
    (hmode : token.mode = .parameter) :
  ∃ digits, token.text = '$' :: digits ∧ digits ≠ [] ∧ ∀ d ∈ digits, d.isDigit = true
  := by
  have htext : DollarText token.mode token.text :=
    Scanner.tokens_invariant start_dollarText (fun _ _ _ _ => next_dollarText) h
  exact htext.2 hmode

end PostgresLexer
