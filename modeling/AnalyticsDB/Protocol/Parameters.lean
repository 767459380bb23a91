import AnalyticsDB.Lib.Effect
import AnalyticsDB.Lib.PostgresLexer
import AnalyticsDB.Lib.Template
import Mathlib.Algebra.Order.Ring.Nat

/-!
# Parameters of prepared statements

The values bound to a prepared statement are rendered into its text as literals.  The text is
scanned byte by byte: a placeholder `$n` is replaced unless it stands between single quotes.
This finds the parameters of a statement only as long as all of its text is ASCII and single
quotes are what decides whether a placeholder is one.
-/

open PostgresLexer Template

/-- An error that is sent to the client, or a crash. -/
inductive RenderFailure where
  | error (message : String)
  | panic
  deriving DecidableEq, Repr

/-! ### The scanner -/

/-- A byte as a character. -/
def byteAsChar (byte : UInt8) : Char := Char.ofNat byte.toNat

/-- The bytes of a character in UTF-8, each as a character. -/
def charBytes (c : Char) : List Char := (String.utf8EncodeChar c).map byteAsChar

/-- The bytes of a text, each as a character. -/
def bytesAsChars (sql : String) : List Char := sql.toList.flatMap charBytes

/-- The number that decimal digits stand for. -/
def digitsValue (digits : List Char) : Nat :=
  digits.foldl (fun n d => 10 * n + (d.toNat - 48)) 0

/-- Read a `usize`. -/
def parseUsize (digits : List Char) : Except String Nat :=
  if digitsValue digits < 2 ^ 64 then .ok (digitsValue digits)
  else .error "number too large to fit in target type"

/-- The largest number after a dollar sign, from `count` on. -/
def countFrom (count : Nat) (chars : List Char) : Nat :=
  match chars with
  | [] => count
  | ch :: rest =>
    let digits := rest.takeWhile Char.isDigit
    if ch = '$' ∧ digits ≠ [] then
      countFrom (match parseUsize digits with
        | .ok value => max count value
        | .error _ => count) (rest.dropWhile Char.isDigit)
    else
      countFrom count rest
termination_by chars.length
decreasing_by
  · simp only [List.length_cons]
    have := (List.dropWhile_sublist Char.isDigit (l := rest)).length_le
    omega
  · simp

def referencedParameterCount (sql : String) : Nat := countFrom 0 (bytesAsChars sql)

section

variable (literalForIndex : Nat → Except RenderFailure String)

/-- The literal of a placeholder. -/
def placeholderLiteral (placeholder : List Char) : Except RenderFailure (List Char) :=
  match parseUsize placeholder with
  | .error error =>
    .error (.error s!"invalid PostgreSQL parameter placeholder '${String.ofList placeholder}': {error}")
  | .ok placeholderIndex =>
    match literalForIndex placeholderIndex with
    | .error failure => .error failure
    | .ok literal => .ok literal.toList

/-- What the rest of a text is rendered to, inside or outside of single quotes. -/
def renderFrom (inSingleQuote : Bool) (chars : List Char) : Except RenderFailure (List Char) :=
  match chars with
  | [] => .ok []
  | ch :: rest =>
    if ch = '\'' then
      if inSingleQuote then
        if rest.head? = some '\'' then do
          let rendered ← renderFrom true rest.tail
          return ch :: '\'' :: rendered
        else do
          let rendered ← renderFrom false rest
          return ch :: rendered
      else do
        let rendered ← renderFrom true rest
        return ch :: rendered
    else
      let placeholder := rest.takeWhile Char.isDigit
      if inSingleQuote = false ∧ ch = '$' ∧ placeholder ≠ [] then do
        let literal ← placeholderLiteral literalForIndex placeholder
        let rendered ← renderFrom inSingleQuote (rest.dropWhile Char.isDigit)
        return literal ++ rendered
      else do
        let rendered ← renderFrom inSingleQuote rest
        return ch :: rendered
termination_by chars.length
decreasing_by
  all_goals simp only [List.length_cons, List.length_tail]
  · omega
  · omega
  · omega
  · have := (List.dropWhile_sublist Char.isDigit (l := rest)).length_le
    omega
  · omega

def renderSqlWithLiterals (sql : String) : Except RenderFailure String := do
  let rendered ← renderFrom literalForIndex false (bytesAsChars sql)
  return String.ofList rendered

end

/-! ### The literals -/

/-- The types of parameters. -/
inductive PgType where
  | bool | int2 | int4 | int8 | float4 | float8 | numeric
  | text | varchar | bpchar | name | unknown
  | other (typeName : String)
  deriving DecidableEq, Repr

/-- A floating-point number as it is displayed. -/
inductive FloatText where
  | nan
  | infinite (negative : Bool)
  | finite (negative : Bool) (whole : Nat) (fraction : List (Fin 10))
  deriving DecidableEq, Repr

/-- The sign of a number that is displayed. -/
def signText (negative : Bool) : String := if negative then "-" else ""

def FloatText.toText : FloatText → String
  | .nan => "NaN"
  | .infinite negative => signText negative ++ "inf"
  | .finite negative whole fraction =>
    signText negative ++ toString whole
      ++ (if fraction.isEmpty then "" else "." ++ String.join (fraction.map (toString ·.val)))

/-- The values bound to the parameters of a statement, by the type they are read as. -/
structure Portal where
  bool : Nat → Except RenderFailure (Option Bool)
  int : Nat → Except RenderFailure (Option Int)
  float : Nat → Except RenderFailure (Option FloatText)
  text : Nat → Except RenderFailure (Option String)

def unsupportedParameterTypeError (name : String) : RenderFailure :=
  .error ("unsupported PostgreSQL parameter type in prototype extended-query path: " ++ name)

def defaultParameterLiteral : PgType → Except RenderFailure String
  | .bool => .ok "FALSE"
  | .int2 | .int4 | .int8 => .ok "0"
  | .float4 | .float8 | .numeric => .ok "0"
  | .text | .varchar | .bpchar | .name | .unknown => .ok "''"
  | .other typeName => .error (unsupportedParameterTypeError typeName)

def optionToSqlLiteral (value : Option String) : String := value.getD "NULL"

/-- A text between quotes, those in it doubled. -/
def optionStringToSqlLiteral : Option String → String
  | none => "NULL"
  | some value =>
    String.ofList ('\'' :: value.toList.flatMap (fun c => if c = '\'' then ['\'', '\''] else [c])
      ++ ['\''])

def parameterLiteralFromPortal (portal : Portal) (index : Nat) :
    PgType → Except RenderFailure String
  | .bool => do
    let value ← portal.bool index
    return optionToSqlLiteral (value.map (fun b => if b then "true" else "false"))
  | .int2 | .int4 | .int8 => do
    let value ← portal.int index
    return optionToSqlLiteral (value.map toString)
  | .float4 | .float8 | .numeric => do
    let value ← portal.float index
    return optionToSqlLiteral (value.map FloatText.toText)
  | .text | .varchar | .bpchar | .name | .unknown => do
    let value ← portal.text index
    return optionStringToSqlLiteral value
  | .other typeName => .error (unsupportedParameterTypeError typeName)

def resolvedParameterTypes (parameterCount : Nat) (types : List (Option PgType)) : List PgType :=
  (List.range parameterCount).map (fun index => (types[index]?.join).getD .unknown)

/-- The literal at an index that counts from one; at zero the index overflows. -/
def literalForType (types : List PgType) (literal : Nat → PgType → Except RenderFailure String) :
    Nat → Except RenderFailure String
  | 0 => .error .panic
  | index + 1 =>
    match types[index]? with
    | none => .error (unsupportedParameterTypeError "missing parameter type")
    | some type => literal index type

def renderSqlWithDefaultParameters (sql : String) (parameterTypes : List PgType) :
    Except RenderFailure String :=
  renderSqlWithLiterals (literalForType parameterTypes (fun _ => defaultParameterLiteral)) sql

def renderSqlWithPortalParameters (sql : String) (parameterTypes : List PgType)
    (portal : Portal) : Except RenderFailure String :=
  renderSqlWithLiterals (literalForType parameterTypes (parameterLiteralFromPortal portal)) sql

/-- The literals that values are rendered to. -/
inductive IsLiteral (text : String) : Prop where
  | default (type : PgType) (h : defaultParameterLiteral type = .ok text)
  | bound (portal : Portal) (index : Nat) (type : PgType)
      (h : parameterLiteralFromPortal portal index type = .ok text)

/-- The literal at an index that counts from one. -/
def literalAt (literals : List String) : Nat → Except RenderFailure String
  | 0 => .error .panic
  | index + 1 =>
    match literals[index]? with
    | none => .error (unsupportedParameterTypeError "missing parameter type")
    | some literal => .ok literal

/-- Where every type has its literal, the types stand for the list of their literals. -/
theorem literalForType_eq_literalAt {types : List PgType} {literals : List String}
    {literal : Nat → PgType → Except RenderFailure String}
    (hlength : literals.length = types.length)
    (hliterals : ∀ index type, types[index]? = some type →
      literal index type = .ok (literals[index]?.getD "")) :
  literalForType types literal = literalAt literals
  := by
  funext index
  cases index with
  | zero => rfl
  | succ index =>
      simp only [literalForType, literalAt]
      cases htype : types[index]? with
      | none =>
          have hnone : literals[index]? = none := by
            rw [List.getElem?_eq_none_iff] at htype ⊢
            omega
          rw [hnone]
      | some type =>
          obtain ⟨hindex, -⟩ := List.getElem?_eq_some_iff.mp htype
          have hsome : literals[index]? = some literals[index] :=
            List.getElem?_eq_getElem (hlength ▸ hindex)
          simp only [hliterals index type htype, hsome, Option.getD_some]

/-! ### What rendering should do -/

/-- The number of a token that is a parameter. -/
def parameterOf (token : Token Char Mode) : Option Nat :=
  if token.mode = .parameter ∧ digitsValue token.text.tail ≠ 0 then
    some (digitsValue token.text.tail)
  else
    none

/-- The numbers of the parameters of a text. -/
def parameters (sql : String) : List Nat := (tokens sql.toList).filterMap parameterOf

/-- The largest parameter of a text, zero if there is none. -/
def largestParameter (sql : String) : Nat := (parameters sql).foldl max 0

/-- The literal of a parameter. -/
def literalText (literals : List String) (n : Nat) : List Char :=
  (literals[n - 1]?.getD "").toList

/-- A token, or the literal it is replaced by. -/
def substituted (literals : List String) (token : Token Char Mode) : List Char :=
  match parameterOf token with
  | some n => literalText literals n
  | none => token.text

/-- The tokens of what a token is replaced by. -/
def substitutedTokens (literals : List String) (token : Token Char Mode) :
    List (Token Char Mode) :=
  match parameterOf token with
  | some n => tokens (literalText literals n)
  | none => [token]

/-- A text with its parameters replaced by their literals. -/
def expectedSql (literals : List String) (sql : String) : String :=
  String.ofList ((tokens sql.toList).flatMap (substituted literals))

/-- The parameters of a text are replaced by their literals, and nothing else is: neither in the
text nor in its tokens. -/
structure TokenExact (sql : String) (literals : List String) : Prop where
  rendered : renderSqlWithLiterals (literalAt literals) sql = .ok (expectedSql literals sql)
  tokens_eq : tokens (expectedSql literals sql).toList
    = (tokens sql.toList).flatMap (substitutedTokens literals)
  count_eq : referencedParameterCount sql = largestParameter sql

/-- A parameter starts after a part of a text. -/
def StartsParameter (sql : String) (before : List Char) : Prop :=
  ∃ left token right, tokens sql.toList = left ++ token :: right
    ∧ (parameterOf token).isSome = true ∧ (left.map (·.text)).flatten = before

/-- No placeholder that is a number has a larger one. -/
def PlaceholdersAtMost (bound : Nat) (chars : List Char) : Prop :=
  ∀ before rest, chars = before ++ '$' :: rest →
    digitsValue (rest.takeWhile Char.isDigit) < 2 ^ 64 →
    digitsValue (rest.takeWhile Char.isDigit) ≤ bound

/-- All of a text is ASCII, single quotes decide which of its placeholders are parameters, no
literal runs into what stands next to it, and no placeholder has a larger number than the
parameters. -/
structure Scannable (sql : String) (literals : List String) : Prop where
  ascii : ∀ c ∈ sql.toList, c.toNat < 128
  quotes : ∀ before d rest, sql.toList = before ++ '$' :: d :: rest → d.isDigit = true →
    (before.count '\'' % 2 = 0 ↔ StartsParameter sql before)
  apart : ((tokens sql.toList).map (substituted literals)).IsChain lexer.Breaks
  largest : PlaceholdersAtMost (largestParameter sql) sql.toList

/-! ### Literals -/

/-- What is put after a value does not change its start. -/
theorem tells_append {value : List Char} (h : Tells value) (rest : List Char) :
  Tells (value ++ rest)
  := by
  obtain ⟨c, tail, rfl, hc⟩ := h
  exact ⟨c, tail ++ rest, rfl, hc⟩

theorem ne_dollar_of_isDigit {c : Char} (h : c.isDigit = true) :
  c ≠ '$'
  := by
  rintro rfl
  cases h

theorem tells_nat (n : Nat) :
  Tells (toString n).toList
  := by
  have hlist : (toString n).toList = Nat.toDigits 10 n := Nat.toList_repr
  rw [hlist]
  cases hdigits : Nat.toDigits 10 n with
  | nil => exact absurd hdigits Nat.toDigits_ne_nil
  | cons d digits =>
      have hd : d.isDigit = true := by
        apply Nat.isDigit_of_mem_toDigits (b := 10) (n := n) (by decide) (by decide)
        rw [hdigits]
        exact List.mem_cons_self
      exact ⟨d, digits, rfl, lt_of_isDigit hd, ne_dollar_of_isDigit hd⟩

theorem tells_sign (negative : Bool) {text : String} (h : Tells text.toList) :
  Tells (signText negative ++ text).toList
  := by
  rw [String.toList_append]
  cases negative with
  | false => exact h
  | true => exact ⟨'-', text.toList, rfl, by decide, by decide⟩

theorem tells_int (n : Int) :
  Tells (toString n).toList
  := by
  cases n with
  | ofNat n => exact tells_nat n
  | negSucc n => exact ⟨'-', (toString (n + 1)).toList, String.toList_append, by decide, by decide⟩

theorem tells_float (x : FloatText) :
  Tells x.toText.toList
  := by
  cases x with
  | nan => exact ⟨'N', ['a', 'N'], rfl, by decide, by decide⟩
  | infinite negative => exact tells_sign negative ⟨'i', ['n', 'f'], rfl, by decide, by decide⟩
  | finite negative whole fraction =>
      rw [FloatText.toText, String.toList_append]
      exact tells_append (tells_sign negative (tells_nat whole)) _

theorem tells_option {value : Option String} (h : ∀ text ∈ value, Tells text.toList) :
  Tells (optionToSqlLiteral value).toList
  := by
  cases value with
  | none => exact ⟨'N', ['U', 'L', 'L'], rfl, by decide, by decide⟩
  | some text => exact h text rfl

theorem tells_optionString (value : Option String) :
  Tells (optionStringToSqlLiteral value).toList
  := by
  cases value with
  | none => exact ⟨'N', ['U', 'L', 'L'], rfl, by decide, by decide⟩
  | some text =>
      rw [optionStringToSqlLiteral, String.toList_ofList]
      exact ⟨'\'', _, rfl, by decide, by decide⟩

theorem defaultParameterLiteral_tells {type : PgType} {text : String}
    (h : defaultParameterLiteral type = .ok text) :
  Tells text.toList
  := by
  cases type with
  | bool =>
      cases h
      exact ⟨'F', ['A', 'L', 'S', 'E'], rfl, by decide, by decide⟩
  | int2 | int4 | int8 | float4 | float8 | numeric =>
      cases h
      exact ⟨'0', [], rfl, by decide, by decide⟩
  | text | varchar | bpchar | name | unknown =>
      cases h
      exact ⟨'\'', ['\''], rfl, by decide, by decide⟩
  | other typeName => cases h

theorem parameterLiteralFromPortal_tells {portal : Portal} {index : Nat} {type : PgType}
    {text : String} (h : parameterLiteralFromPortal portal index type = .ok text) :
  Tells text.toList
  := by
  cases type with
  | bool =>
      obtain ⟨value, -, h⟩ := Except.bind_eq_ok_iff.mp h
      cases h
      apply tells_option
      rintro text htext
      obtain ⟨b, -, rfl⟩ := Option.map_eq_some_iff.mp htext
      cases b with
      | false => exact ⟨'f', ['a', 'l', 's', 'e'], rfl, by decide, by decide⟩
      | true => exact ⟨'t', ['r', 'u', 'e'], rfl, by decide, by decide⟩
  | int2 | int4 | int8 =>
      obtain ⟨value, -, h⟩ := Except.bind_eq_ok_iff.mp h
      cases h
      apply tells_option
      rintro text htext
      obtain ⟨n, -, rfl⟩ := Option.map_eq_some_iff.mp htext
      exact tells_int n
  | float4 | float8 | numeric =>
      obtain ⟨value, -, h⟩ := Except.bind_eq_ok_iff.mp h
      cases h
      apply tells_option
      rintro text htext
      obtain ⟨x, -, rfl⟩ := Option.map_eq_some_iff.mp htext
      exact tells_float x
  | text | varchar | bpchar | name | unknown =>
      obtain ⟨value, -, h⟩ := Except.bind_eq_ok_iff.mp h
      cases h
      exact tells_optionString value
  | other typeName => cases h

/-- A literal starts with a quote, a sign, a digit or a letter. -/
theorem IsLiteral.tells {text : String} (h : IsLiteral text) :
  Tells text.toList
  := by
  cases h with
  | default type h => exact defaultParameterLiteral_tells h
  | bound portal index type h => exact parameterLiteralFromPortal_tells h

/-! ### Bytes -/

theorem charBytes_ascii {c : Char} (h : c.toNat < 128) :
  charBytes c = [c]
  := by
  have hval : c.val.toNat ≤ 127 := Nat.le_of_lt_succ h
  rw [charBytes, String.utf8EncodeChar, if_pos hval]
  have hbyte : (UInt8.ofNat c.val.toNat).toNat = c.toNat := by
    rw [UInt8.toNat_ofNat']
    exact Nat.mod_eq_of_lt (by omega)
  simp only [List.map_cons, List.map_nil, byteAsChar, hbyte, Char.ofNat_toNat]

/-- A byte outside ASCII becomes a character outside ASCII. -/
theorem le_byteAsChar {n : Nat} (hn : 128 ≤ n) (hlt : n < 256) :
  128 ≤ (byteAsChar (UInt8.ofNat n)).toNat
  := by
  have hbyte : (UInt8.ofNat n).toNat = n := by
    rw [UInt8.toNat_ofNat']
    exact Nat.mod_eq_of_lt hlt
  have hvalid : n.isValidChar := .inl (by omega)
  rw [byteAsChar, hbyte, Char.ofNat, dif_pos hvalid]
  exact hn

/-- A character outside ASCII becomes several, all of them outside ASCII. -/
theorem charBytes_other {c : Char} (h : 128 ≤ c.toNat) :
  2 ≤ (charBytes c).length ∧ ∀ b ∈ charBytes c, 128 ≤ b.toNat
  := by
  have hval : ¬ c.val.toNat ≤ 127 := by
    have hc : c.toNat = c.val.toNat := rfl
    omega
  rw [charBytes, String.utf8EncodeChar, if_neg hval]
  split
  · refine ⟨by simp, ?_⟩
    simp only [List.map_cons, List.map_nil, List.mem_cons, List.not_mem_nil, or_false]
    rintro b (rfl | rfl)
    · exact le_byteAsChar (by omega) (by omega)
    · exact le_byteAsChar (by omega) (by omega)
  · split
    · refine ⟨by simp, ?_⟩
      simp only [List.map_cons, List.map_nil, List.mem_cons, List.not_mem_nil, or_false]
      rintro b (rfl | rfl | rfl)
      all_goals exact le_byteAsChar (by omega) (by omega)
    · refine ⟨by simp, ?_⟩
      simp only [List.map_cons, List.map_nil, List.mem_cons, List.not_mem_nil, or_false]
      rintro b (rfl | rfl | rfl | rfl)
      all_goals exact le_byteAsChar (by omega) (by omega)

/-- The bytes of a text in ASCII are its characters. -/
theorem bytesAsChars_ascii {sql : String} (h : ∀ c ∈ sql.toList, c.toNat < 128) :
  bytesAsChars sql = sql.toList
  := by
  rw [bytesAsChars]
  generalize sql.toList = text at h
  induction text with
  | nil => rfl
  | cons c text ih =>
      rw [List.flatMap_cons, charBytes_ascii (h c List.mem_cons_self),
        ih (fun d hd => h d (List.mem_cons_of_mem _ hd)), List.singleton_append]

/-! ### The pieces that are scanned -/

/-- The pieces of a text whose holes are the placeholders outside of single quotes. -/
def quotedPieces (inSingleQuote : Bool) (chars : List Char) : List Piece :=
  match chars with
  | [] => []
  | ch :: rest =>
    let placeholder := rest.takeWhile Char.isDigit
    if inSingleQuote = false ∧ ch = '$' ∧ placeholder ≠ [] then
      .hole placeholder :: quotedPieces inSingleQuote (rest.dropWhile Char.isDigit)
    else
      .char ch :: quotedPieces (inSingleQuote ^^ ch == '\'') rest
termination_by chars.length
decreasing_by
  all_goals simp only [List.length_cons]
  · have := (List.dropWhile_sublist Char.isDigit (l := rest)).length_le
    omega
  · omega

theorem noDigit_dropWhile (text : List Char) :
  NoDigit (text.dropWhile Char.isDigit)
  := by
  intro c hc
  have hnot := List.head?_dropWhile_not Char.isDigit text
  rw [show (text.dropWhile Char.isDigit).head? = some c from hc] at hnot
  simpa using hnot

theorem source_quotedPieces (inSingleQuote : Bool) (chars : List Char) :
  source (quotedPieces inSingleQuote chars) = chars
  := by
  fun_induction quotedPieces inSingleQuote chars with
  | case1 => rfl
  | case2 inSingleQuote ch rest placeholder h ih =>
      rw [source_hole, ih, List.takeWhile_append_dropWhile, h.2.1]
  | case3 inSingleQuote ch rest placeholder h ih =>
      rw [source_char, ih]

theorem greedy_quotedPieces (inSingleQuote : Bool) (chars : List Char) :
  Greedy (quotedPieces inSingleQuote chars)
  := by
  fun_induction quotedPieces inSingleQuote chars with
  | case1 => trivial
  | case2 inSingleQuote ch rest placeholder h ih =>
      refine ⟨h.2.2, ?_, ?_, ih⟩
      · intro d hd
        exact List.mem_takeWhile_imp hd
      · rw [source_quotedPieces]
        exact noDigit_dropWhile rest
  | case3 inSingleQuote ch rest placeholder h ih => exact greedy_char.mpr ih

/-- Fill the holes of a text with what may fail. -/
def fillWith (value : List Char → Except RenderFailure (List Char)) :
    List Piece → Except RenderFailure (List Char)
  | [] => .ok []
  | .char c :: rest => do
    let rendered ← fillWith value rest
    return c :: rendered
  | .hole digits :: rest => do
    let literal ← value digits
    let rendered ← fillWith value rest
    return literal ++ rendered

/-- What a hole is filled with, nothing when that fails. -/
def valueOf (value : List Char → Except RenderFailure (List Char)) (digits : List Char) :
    List Char :=
  (value digits).toOption.getD []

/-- Filling a text succeeds when every hole has its value. -/
theorem fillWith_eq_ok_iff {value : List Char → Except RenderFailure (List Char)}
    {pieces : List Piece} {text : List Char} :
  fillWith value pieces = .ok text
    ↔ (∀ digits, Piece.hole digits ∈ pieces → ∃ literal, value digits = .ok literal)
      ∧ text = fill (valueOf value) pieces
  := by
  induction pieces generalizing text with
  | nil =>
      simp only [fillWith, fill, List.flatMap_nil, List.not_mem_nil, IsEmpty.forall_iff,
        implies_true, true_and, Except.ok.injEq]
      exact eq_comm
  | cons piece rest ih =>
      cases piece with
      | char c =>
          rw [fillWith, Except.bind_eq_ok_iff, fill_char]
          constructor
          · rintro ⟨rendered, hrendered, h⟩
            cases h
            obtain ⟨hvalues, rfl⟩ := ih.mp hrendered
            exact ⟨fun digits hdigits => hvalues digits (by simpa using hdigits), rfl⟩
          · rintro ⟨hvalues, rfl⟩
            refine ⟨_, ih.mpr ⟨?_, rfl⟩, rfl⟩
            exact fun digits hdigits => hvalues digits (List.mem_cons_of_mem _ hdigits)
      | hole digits =>
          rw [fillWith, Except.bind_eq_ok_iff, fill_hole]
          constructor
          · rintro ⟨literal, hliteral, h⟩
            obtain ⟨rendered, hrendered, h⟩ := Except.bind_eq_ok_iff.mp h
            cases h
            obtain ⟨hvalues, rfl⟩ := ih.mp hrendered
            constructor
            · intro digits' hdigits'
              obtain h | h := List.mem_cons.mp hdigits'
              · cases h
                exact ⟨literal, hliteral⟩
              · exact hvalues digits' h
            · simp only [valueOf, hliteral, Except.toOption, Option.getD_some]
          · rintro ⟨hvalues, rfl⟩
            obtain ⟨literal, hliteral⟩ := hvalues digits List.mem_cons_self
            refine ⟨literal, hliteral, Except.bind_eq_ok_iff.mpr ⟨_, ih.mpr ⟨?_, rfl⟩, ?_⟩⟩
            · exact fun digits' hdigits' => hvalues digits' (List.mem_cons_of_mem _ hdigits')
            · simp only [valueOf, hliteral, Except.toOption, Option.getD_some]
              rfl

/-- Outside of holes a piece of a text is one character, and a quote opens or closes. -/
theorem quotedPieces_char {inSingleQuote : Bool} {ch : Char} {rest : List Char}
    (h : ¬ (inSingleQuote = false ∧ ch = '$' ∧ rest.takeWhile Char.isDigit ≠ [])) :
  quotedPieces inSingleQuote (ch :: rest)
    = .char ch :: quotedPieces (inSingleQuote ^^ ch == '\'') rest
  := by
  rw [quotedPieces, if_neg h]

theorem quotedPieces_quote {inSingleQuote : Bool} {rest : List Char} :
  quotedPieces inSingleQuote ('\'' :: rest)
    = .char '\'' :: quotedPieces (!inSingleQuote) rest
  := by
  rw [quotedPieces_char (by simp)]
  simp

/-- Rendering fills the placeholders outside of single quotes. -/
theorem renderFrom_eq (literalForIndex : Nat → Except RenderFailure String)
    (inSingleQuote : Bool) (chars : List Char) :
  renderFrom literalForIndex inSingleQuote chars
    = fillWith (placeholderLiteral literalForIndex) (quotedPieces inSingleQuote chars)
  := by
  fun_induction renderFrom literalForIndex inSingleQuote chars with
  | case1 => rw [quotedPieces]; rfl
  | case2 rest hquote ih =>
      obtain ⟨rest, rfl⟩ : ∃ rest', rest = '\'' :: rest' := by
        cases rest with
        | nil => cases hquote
        | cons c rest =>
            cases hquote
            exact ⟨rest, rfl⟩
      rw [quotedPieces_quote, quotedPieces_quote, fillWith, Bool.not_true, fillWith, Bool.not_false,
        ih, List.tail_cons]
      cases fillWith (placeholderLiteral literalForIndex) (quotedPieces true rest) with
      | ok rendered => rfl
      | error failure => rfl
  | case3 rest hquote ih => rw [quotedPieces_quote, fillWith, Bool.not_true, ih]
  | case4 inSingleQuote rest hquote ih =>
      obtain rfl : inSingleQuote = false := by simpa using hquote
      rw [quotedPieces_quote, fillWith, Bool.not_false, ih]
  | case5 inSingleQuote ch rest hch placeholder h ih =>
      rw [quotedPieces, if_pos h, fillWith, ih]
  | case6 inSingleQuote ch rest hch placeholder h ih =>
      have hquote : (ch == '\'') = false := by simpa using hch
      rw [quotedPieces_char h, hquote, Bool.xor_false, fillWith, ih]

/-! ### Where the placeholders are -/

/-- Whether a single quote is open after a part of a text. -/
def quoteOpen (inSingleQuote : Bool) (before : List Char) : Bool :=
  before.foldl (fun quote c => quote ^^ c == '\'') inSingleQuote

theorem quoteOpen_eq_false_iff (inSingleQuote : Bool) (before : List Char) :
  quoteOpen inSingleQuote before = false
    ↔ before.count '\'' % 2 = if inSingleQuote then 1 else 0
  := by
  induction before generalizing inSingleQuote with
  | nil =>
      cases inSingleQuote with
      | false => decide
      | true => decide
  | cons c before ih =>
      rw [quoteOpen, List.foldl_cons, ← quoteOpen, ih, List.count_cons]
      by_cases hc : c = '\''
      · subst hc
        cases inSingleQuote with
        | false =>
            simp
            omega
        | true =>
            simp
            omega
      · have hne : (c == '\'') = false := by simpa using hc
        rw [hne, Bool.xor_false]
        simp

/-- Digits open no quote. -/
theorem quoteOpen_digits {inSingleQuote : Bool} {digits before : List Char}
    (hdigits : ∀ d ∈ digits, d.isDigit = true) :
  quoteOpen inSingleQuote (digits ++ before) = quoteOpen inSingleQuote before
  := by
  induction digits with
  | nil => rfl
  | cons d digits ih =>
      have hd : (d == '\'') = false := by
        have hdigit := hdigits d List.mem_cons_self
        by_contra hne
        obtain rfl : d = '\'' := by simpa using hne
        cases hdigit
      rw [List.cons_append, quoteOpen, List.foldl_cons, hd, Bool.xor_false]
      exact ih (fun e he => hdigits e (List.mem_cons_of_mem _ he))

/-- The placeholder that starts after a part of a text. -/
def PlaceholderAt (chars before : List Char) : Prop :=
  ∃ d rest, chars = before ++ '$' :: d :: rest ∧ d.isDigit = true

theorem not_placeholderAt_nil (before : List Char) :
  ¬ PlaceholderAt [] before
  := by
  rintro ⟨d, rest, h, -⟩
  exact List.cons_ne_nil _ _ (List.append_eq_nil_iff.mp h.symm).2

theorem placeholderAt_cons {c : Char} {chars before : List Char} :
  PlaceholderAt (c :: chars) before
    ↔ (before = [] ∧ c = '$' ∧ chars.takeWhile Char.isDigit ≠ [])
      ∨ ∃ before', before = c :: before' ∧ PlaceholderAt chars before'
  := by
  constructor
  · rintro ⟨d, rest, h, hd⟩
    cases before with
    | nil =>
        cases h
        left
        refine ⟨rfl, rfl, ?_⟩
        rw [List.takeWhile_cons, if_pos hd]
        simp
    | cons b before =>
        cases h
        exact .inr ⟨before, rfl, d, rest, rfl, hd⟩
  · rintro (⟨rfl, rfl, hdigits⟩ | ⟨before', rfl, d, rest, rfl, hd⟩)
    · cases chars with
      | nil => exact absurd rfl hdigits
      | cons d rest =>
          refine ⟨d, rest, rfl, ?_⟩
          by_contra hd
          rw [List.takeWhile_cons, if_neg hd] at hdigits
          exact hdigits rfl
    · exact ⟨d, rest, rfl, hd⟩

/-- No placeholder starts at a digit. -/
theorem placeholderAt_digits {digits chars before : List Char}
    (hdigits : ∀ d ∈ digits, d.isDigit = true) :
  PlaceholderAt (digits ++ chars) before
    ↔ ∃ before', before = digits ++ before' ∧ PlaceholderAt chars before'
  := by
  induction digits generalizing before with
  | nil => simp
  | cons d digits ih =>
      have hd : d ≠ '$' := ne_dollar_of_isDigit (hdigits d List.mem_cons_self)
      have hrest : ∀ e ∈ digits, e.isDigit = true :=
        fun e he => hdigits e (List.mem_cons_of_mem _ he)
      simp only [List.cons_append, placeholderAt_cons, hd, false_and, and_false, false_or,
        ih hrest]
      constructor
      · rintro ⟨_, rfl, before', rfl, h⟩
        exact ⟨before', rfl, h⟩
      · rintro ⟨before', rfl, h⟩
        exact ⟨_, rfl, before', rfl, h⟩

/-- The holes of a text are its placeholders outside of single quotes. -/
theorem holeAt_quotedPieces (inSingleQuote : Bool) (chars before : List Char) :
  HoleAt (quotedPieces inSingleQuote chars) before
    ↔ PlaceholderAt chars before ∧ quoteOpen inSingleQuote before = false
  := by
  fun_induction quotedPieces inSingleQuote chars generalizing before with
  | case1 =>
      exact iff_of_false (holeAt_nil before) (fun h => not_placeholderAt_nil before h.1)
  | case2 inSingleQuote ch rest placeholder h ih =>
      obtain ⟨rfl, rfl, hplaceholder⟩ := h
      have hdigits : ∀ d ∈ placeholder, d.isDigit = true := fun d hd => List.mem_takeWhile_imp hd
      rw [holeAt_hole, placeholderAt_cons]
      constructor
      · rintro (rfl | ⟨before', rfl, hhole⟩)
        · exact ⟨.inl ⟨rfl, rfl, hplaceholder⟩, rfl⟩
        · obtain ⟨hat, hopen⟩ := (ih before').mp hhole
          refine ⟨.inr ⟨_, rfl, ?_⟩, ?_⟩
          · rw [← List.takeWhile_append_dropWhile (p := Char.isDigit) (l := rest),
              placeholderAt_digits hdigits]
            exact ⟨before', rfl, hat⟩
          · rw [quoteOpen, List.foldl_cons]
            exact (quoteOpen_digits hdigits).trans hopen
      · rintro ⟨⟨rfl, -⟩ | ⟨before', rfl, hat⟩, hopen⟩
        · exact .inl rfl
        · rw [← List.takeWhile_append_dropWhile (p := Char.isDigit) (l := rest),
            placeholderAt_digits hdigits] at hat
          obtain ⟨before'', rfl, hat⟩ := hat
          right
          refine ⟨before'', rfl, (ih before'').mpr ⟨hat, ?_⟩⟩
          rw [quoteOpen, List.foldl_cons] at hopen
          exact (quoteOpen_digits hdigits).symm.trans hopen
  | case3 inSingleQuote ch rest placeholder h ih =>
      rw [holeAt_char, placeholderAt_cons]
      constructor
      · rintro ⟨before', rfl, hhole⟩
        obtain ⟨hat, hopen⟩ := (ih before').mp hhole
        exact ⟨.inr ⟨before', rfl, hat⟩, hopen⟩
      · rintro ⟨⟨rfl, hch, hdigits⟩ | ⟨before', rfl, hat⟩, hopen⟩
        · exact absurd ⟨hopen, hch, hdigits⟩ h
        · exact ⟨before', rfl, (ih before').mpr ⟨hat, hopen⟩⟩

/-! ### The pieces of the tokens -/

/-- The pieces of a text whose holes are its parameters. -/
def tokenPieces (token : Token Char Mode) : List Piece :=
  if (parameterOf token).isSome then [.hole token.text.tail] else token.text.map .char

/-- A parameter has the mode of one. -/
theorem mode_of_parameterOf {token : Token Char Mode} {n : Nat} (h : parameterOf token = some n) :
  token.mode = .parameter ∧ n = digitsValue token.text.tail ∧ n ≠ 0
  := by
  rw [parameterOf] at h
  split at h
  · rename_i hmode
    cases h
    exact ⟨hmode.1, rfl, hmode.2⟩
  · cases h

/-- The text of a parameter. -/
theorem text_of_parameterOf {sql : List Char} {token : Token Char Mode} (hmem : token ∈ tokens sql)
    (h : (parameterOf token).isSome = true) :
  token.text = '$' :: token.text.tail ∧ token.text.tail ≠ []
    ∧ ∀ d ∈ token.text.tail, d.isDigit = true
  := by
  obtain ⟨n, hn⟩ := Option.isSome_iff_exists.mp h
  obtain ⟨digits, htext, hdigits⟩ := text_of_parameter hmem (mode_of_parameterOf hn).1
  rw [htext]
  exact ⟨rfl, hdigits⟩

theorem source_tokenPieces {sql : List Char} {token : Token Char Mode}
    (hmem : token ∈ tokens sql) :
  source (tokenPieces token) = token.text
  := by
  rw [tokenPieces]
  split
  · rename_i h
    rw [source_hole]
    simpa [source] using (text_of_parameterOf hmem h).1.symm
  · simp [source, List.flatMap_map, Piece.source]

theorem source_flatMap_tokenPieces {sql : List Char} {others : List (Token Char Mode)}
    (hmem : ∀ token ∈ others, token ∈ tokens sql) :
  source (others.flatMap tokenPieces) = (others.map (·.text)).flatten
  := by
  induction others with
  | nil => rfl
  | cons token others ih =>
      rw [List.flatMap_cons, source, List.flatMap_append, ← source, ← source,
        source_tokenPieces (hmem token List.mem_cons_self),
        ih (fun other hother => hmem other (List.mem_cons_of_mem _ hother)), List.map_cons,
        List.flatten_cons]

theorem greedy_map_char {text : List Char} {rest : List Piece} (h : Greedy rest) :
  Greedy (text.map .char ++ rest)
  := by
  induction text with
  | nil => exact h
  | cons c text ih => exact greedy_char.mpr ih

/-- What follows a parameter does not start with a digit. -/
theorem noDigit_of_ends {sql : List Char} {token : Token Char Mode}
    {others : List (Token Char Mode)} (hmode : token.mode = .parameter)
    (hmem : ∀ other ∈ others, other ∈ tokens sql)
    (hends : (token :: others).IsChain lexer.Ends) :
  NoDigit (others.map (·.text)).flatten
  := by
  cases others with
  | nil => exact fun c hc => nomatch hc
  | cons next others =>
      have hnext : lexer.Ends token next := (List.isChain_cons_cons.mp hends).1
      cases htext : next.text with
      | nil =>
          exact absurd htext (Scanner.text_ne_nil_of_mem_tokens (hmem next List.mem_cons_self))
      | cons c text =>
          have hnone : PostgresLexer.next token.mode c = none := hnext c (by rw [htext]; rfl)
          rw [hmode] at hnone
          rw [List.map_cons, List.flatten_cons, htext]
          intro d hd
          cases hd
          by_contra hdigit
          simp [PostgresLexer.next, hdigit] at hnone

theorem greedy_flatMap_tokenPieces {sql : List Char} {others : List (Token Char Mode)}
    (hmem : ∀ token ∈ others, token ∈ tokens sql) (hends : others.IsChain lexer.Ends) :
  Greedy (others.flatMap tokenPieces)
  := by
  induction others with
  | nil => trivial
  | cons token others ih =>
      have hrest : ∀ other ∈ others, other ∈ tokens sql :=
        fun other hother => hmem other (List.mem_cons_of_mem _ hother)
      have hgreedy := ih hrest hends.tail
      rw [List.flatMap_cons, tokenPieces]
      split
      · rename_i h
        obtain ⟨-, hne, hdigits⟩ := text_of_parameterOf (hmem token List.mem_cons_self) h
        rw [List.singleton_append]
        refine ⟨hne, hdigits, ?_, hgreedy⟩
        rw [source_flatMap_tokenPieces hrest]
        obtain ⟨n, hn⟩ := Option.isSome_iff_exists.mp h
        exact noDigit_of_ends (mode_of_parameterOf hn).1 hrest hends
      · exact greedy_map_char hgreedy

/-- There is no hole in what is not a parameter. -/
theorem holeAt_map_char {text before : List Char} {rest : List Piece} :
  HoleAt (text.map .char ++ rest) before
    ↔ ∃ before', before = text ++ before' ∧ HoleAt rest before'
  := by
  induction text generalizing before with
  | nil => simp
  | cons c text ih =>
      simp only [List.map_cons, List.cons_append, holeAt_char, ih]
      constructor
      · rintro ⟨_, rfl, before', rfl, h⟩
        exact ⟨before', rfl, h⟩
      · rintro ⟨before', rfl, h⟩
        exact ⟨_, rfl, before', rfl, h⟩

/-- The holes are where the parameters start. -/
theorem holeAt_flatMap_tokenPieces {sql : List Char} {others : List (Token Char Mode)}
    (hmem : ∀ token ∈ others, token ∈ tokens sql) (before : List Char) :
  HoleAt (others.flatMap tokenPieces) before
    ↔ ∃ left token right, others = left ++ token :: right
      ∧ (parameterOf token).isSome = true ∧ (left.map (·.text)).flatten = before
  := by
  induction others generalizing before with
  | nil =>
      apply iff_of_false (holeAt_nil before)
      rintro ⟨left, token, right, h, -⟩
      exact List.cons_ne_nil _ _ (List.append_eq_nil_iff.mp h.symm).2
  | cons token others ih =>
      have hrest : ∀ other ∈ others, other ∈ tokens sql :=
        fun other hother => hmem other (List.mem_cons_of_mem _ hother)
      -- The parameters are the first token, if it is one, and those after it.
      have hsplit : (∃ left found right, token :: others = left ++ found :: right
            ∧ (parameterOf found).isSome = true ∧ (left.map (·.text)).flatten = before)
          ↔ ((parameterOf token).isSome = true ∧ before = [])
            ∨ ∃ before', before = token.text ++ before' ∧ HoleAt (others.flatMap tokenPieces)
              before' := by
        constructor
        · rintro ⟨left, found, right, h, hfound, rfl⟩
          cases left with
          | nil =>
              cases h
              exact .inl ⟨hfound, rfl⟩
          | cons first left =>
              cases h
              exact .inr ⟨_, rfl, (ih hrest _).mpr ⟨left, found, right, rfl, hfound, rfl⟩⟩
        · rintro (⟨h, rfl⟩ | ⟨before', rfl, hhole⟩)
          · exact ⟨[], token, others, rfl, h, rfl⟩
          · obtain ⟨left, found, right, rfl, hfound, rfl⟩ := (ih hrest before').mp hhole
            exact ⟨token :: left, found, right, rfl, hfound, rfl⟩
      rw [hsplit, List.flatMap_cons, tokenPieces]
      split
      · rename_i h
        obtain ⟨htext, -⟩ := text_of_parameterOf (hmem token List.mem_cons_self) h
        rw [List.singleton_append, holeAt_hole, htext, List.tail_cons]
        simp [h]
      · rename_i h
        rw [holeAt_map_char]
        simp [h]

theorem fill_flatMap_tokenPieces {value : List Char → List Char} {literals : List String}
    {others : List (Token Char Mode)}
    (hvalue : ∀ token ∈ others, ∀ n, parameterOf token = some n →
      value token.text.tail = literalText literals n) :
  fill value (others.flatMap tokenPieces) = others.flatMap (substituted literals)
  := by
  induction others with
  | nil => rfl
  | cons token others ih =>
      have hrest := ih (fun other hother => hvalue other (List.mem_cons_of_mem _ hother))
      rw [List.flatMap_cons, List.flatMap_cons, tokenPieces, substituted]
      cases hparameter : parameterOf token with
      | none =>
          rw [if_neg (by simp), fill_map_char, hrest]
      | some n =>
          rw [if_pos (by simp), List.singleton_append, fill_hole, hrest,
            hvalue token List.mem_cons_self n hparameter]

/-! ### Counting -/

section

variable {bound : Nat} {chars : List Char}

theorem placeholdersAtMost_cons {c : Char} :
  PlaceholdersAtMost bound (c :: chars)
    ↔ (c = '$' → digitsValue (chars.takeWhile Char.isDigit) < 2 ^ 64 →
        digitsValue (chars.takeWhile Char.isDigit) ≤ bound)
      ∧ PlaceholdersAtMost bound chars
  := by
  constructor
  · intro h
    constructor
    · rintro rfl
      exact h [] chars rfl
    · intro before rest heq
      exact h (c :: before) rest (by rw [heq, List.cons_append])
  · rintro ⟨hfirst, hrest⟩ before rest heq
    cases before with
    | nil =>
        cases heq
        exact hfirst rfl
    | cons b before =>
        cases heq
        exact hrest before rest rfl

theorem placeholdersAtMost_digits {digits : List Char}
    (hdigits : ∀ d ∈ digits, d.isDigit = true) :
  PlaceholdersAtMost bound (digits ++ chars) ↔ PlaceholdersAtMost bound chars
  := by
  induction digits with
  | nil => rfl
  | cons d digits ih =>
      have hd : d ≠ '$' := ne_dollar_of_isDigit (hdigits d List.mem_cons_self)
      rw [List.cons_append, placeholdersAtMost_cons,
        ih (fun e he => hdigits e (List.mem_cons_of_mem _ he))]
      simp [hd]

/-- The count is at most a bound when it starts so and every placeholder that is a number is. -/
theorem countFrom_le_iff (count : Nat) :
  countFrom count chars ≤ bound ↔ count ≤ bound ∧ PlaceholdersAtMost bound chars
  := by
  fun_induction countFrom count chars with
  | case1 count =>
      simp only [iff_self_and]
      intro _ before rest heq
      exact absurd heq.symm (by simp)
  | case2 count ch rest digits h ih =>
      obtain ⟨rfl, -⟩ := h
      have hdigits : ∀ d ∈ digits, d.isDigit = true := fun d hd => List.mem_takeWhile_imp hd
      have hrest : PlaceholdersAtMost bound rest
          ↔ PlaceholdersAtMost bound (rest.dropWhile Char.isDigit) := by
        conv_lhs => rw [← List.takeWhile_append_dropWhile (p := Char.isDigit) (l := rest)]
        exact placeholdersAtMost_digits hdigits
      rw [ih, placeholdersAtMost_cons, hrest, parseUsize]
      split
      · rename_i value heq
        split at heq
        · rename_i hlt
          cases heq
          have hvalue : digitsValue (rest.takeWhile Char.isDigit) < 18446744073709551616 := hlt
          rw [Nat.max_le, and_assoc]
          simp [digits, hvalue]
        · cases heq
      · rename_i heq
        split at heq
        · cases heq
        · rename_i hlt
          have hvalue : ¬ digitsValue (rest.takeWhile Char.isDigit) < 18446744073709551616 := hlt
          simp [digits, hvalue]
  | case3 count ch rest digits h ih =>
      rw [ih, placeholdersAtMost_cons]
      constructor
      · rintro ⟨hcount, hrest⟩
        refine ⟨hcount, ?_, hrest⟩
        rintro rfl -
        have hnil : rest.takeWhile Char.isDigit = [] := by
          by_contra hdigits
          exact h ⟨rfl, hdigits⟩
        rw [hnil]
        exact Nat.zero_le _
      · rintro ⟨hcount, -, hrest⟩
        exact ⟨hcount, hrest⟩

end

/-- The largest of some numbers is at most a bound when all of them are. -/
theorem foldl_max_le_iff {numbers : List Nat} {start bound : Nat} :
  numbers.foldl max start ≤ bound ↔ start ≤ bound ∧ ∀ n ∈ numbers, n ≤ bound
  := by
  induction numbers generalizing start with
  | nil => simp
  | cons n numbers ih =>
      rw [List.foldl_cons, ih, Nat.max_le]
      simp [and_assoc]

/-- A parameter is a placeholder. -/
theorem le_of_placeholdersAtMost {sql : String} {bound : Nat}
    (h : PlaceholdersAtMost bound sql.toList) {n : Nat} (hn : n ∈ parameters sql)
    (hlt : n < 2 ^ 64) :
  n ≤ bound
  := by
  obtain ⟨token, htoken, hparameter⟩ := List.mem_filterMap.mp hn
  obtain ⟨left, right, hsplit⟩ := List.append_of_mem htoken
  have hsome : (parameterOf token).isSome = true := by rw [hparameter]; rfl
  obtain ⟨hmode, hvalue, -⟩ := mode_of_parameterOf hparameter
  obtain ⟨htext, -, hdigits⟩ := text_of_parameterOf htoken hsome
  have hsql : sql.toList = (left.map (·.text)).flatten
      ++ '$' :: (token.text.tail ++ (right.map (·.text)).flatten) := by
    conv_lhs => rw [← Scanner.flatten_tokens (s := lexer) sql.toList]
    rw [show lexer.tokens sql.toList = left ++ token :: right from hsplit, List.map_append,
      List.flatten_append, List.map_cons, List.flatten_cons]
    conv_lhs => rw [htext]
    rfl
  have hends : (left ++ token :: right).IsChain lexer.Ends :=
    hsplit ▸ Scanner.tokens_ends (s := lexer) sql.toList
  have hright : ∀ other ∈ right, other ∈ tokens sql.toList := by
    intro other hother
    rw [hsplit]
    exact List.mem_append_right _ (List.mem_cons_of_mem _ hother)
  have hno := noDigit_of_ends hmode hright (List.isChain_append.mp hends).2.1
  -- The digits of the token are all the digits there are.
  have htake : (token.text.tail ++ (right.map (·.text)).flatten).takeWhile Char.isDigit
      = token.text.tail := by
    rw [List.takeWhile_append_of_pos hdigits]
    cases hflatten : (right.map (·.text)).flatten with
    | nil => simp
    | cons c rest =>
        rw [hflatten] at hno
        rw [List.takeWhile_cons, hno c rfl]
        simp
  have hplaceholder := h _ _ hsql
  rw [htake, ← hvalue] at hplaceholder
  exact hplaceholder hlt

/-! ### When rendering is exact -/

section

variable {sql : String} {literals : List String}

/-- The pieces of a text whose holes are its parameters. -/
def parameterPieces (sql : String) : List Piece := (tokens sql.toList).flatMap tokenPieces

theorem source_parameterPieces (sql : String) :
  source (parameterPieces sql) = sql.toList
  := by
  rw [parameterPieces, source_flatMap_tokenPieces (fun _ h => h)]
  exact Scanner.flatten_tokens sql.toList

theorem greedy_parameterPieces (sql : String) :
  Greedy (parameterPieces sql)
  := greedy_flatMap_tokenPieces (fun _ h => h) (Scanner.tokens_ends (s := lexer) sql.toList)

theorem holeAt_parameterPieces (sql : String) (before : List Char) :
  HoleAt (parameterPieces sql) before ↔ StartsParameter sql before
  := holeAt_flatMap_tokenPieces (fun _ h => h) before

/-- What a placeholder is replaced by is a literal. -/
theorem placeholderLiteral_ok {digits literal : List Char}
    (h : placeholderLiteral (literalAt literals) digits = .ok literal) :
  ∃ text ∈ literals, literal = text.toList
  := by
  rw [placeholderLiteral] at h
  split at h
  · cases h
  · rename_i index _
    cases index with
    | zero => cases h
    | succ index =>
        rw [literalAt] at h
        cases hliteral : literals[index]? with
        | none =>
            rw [hliteral] at h
            cases h
        | some text =>
            rw [hliteral] at h
            cases h
            exact ⟨text, List.mem_of_getElem? hliteral, rfl⟩

/-- A parameter that has its literal is replaced by it. -/
theorem placeholderLiteral_parameter {digits : List Char} (hlength : literals.length < 2 ^ 64)
    (hne : digitsValue digits ≠ 0) (hle : digitsValue digits ≤ literals.length) :
  placeholderLiteral (literalAt literals) digits
    = .ok (literalText literals (digitsValue digits))
  := by
  rw [placeholderLiteral, parseUsize, if_pos (hle.trans_lt hlength)]
  obtain ⟨index, hindex⟩ := Nat.exists_eq_succ_of_ne_zero hne
  have hlt : index < literals.length := by omega
  simp only [hindex, Nat.succ_eq_add_one, literalAt, literalText, Nat.add_sub_cancel,
    List.getElem?_eq_getElem hlt, Option.getD_some]

/-- The holes of the parameters are filled with their literals. -/
theorem placeholderLiteral_hole (hlength : literals.length < 2 ^ 64)
    (hbound : ∀ n ∈ parameters sql, n ≤ literals.length) {token : Token Char Mode} {n : Nat}
    (hmem : token ∈ tokens sql.toList) (h : parameterOf token = some n) :
  placeholderLiteral (literalAt literals) token.text.tail = .ok (literalText literals n)
  := by
  obtain ⟨-, rfl, hne⟩ := mode_of_parameterOf h
  exact placeholderLiteral_parameter hlength hne
    (hbound _ (List.mem_filterMap.mpr ⟨token, hmem, h⟩))

/-- Every hole of the parameters has its literal. -/
theorem exists_of_hole_mem {digits : List Char} (h : Piece.hole digits ∈ parameterPieces sql) :
  ∃ token n, token ∈ tokens sql.toList ∧ parameterOf token = some n ∧ digits = token.text.tail
  := by
  obtain ⟨token, htoken, hpiece⟩ := List.mem_flatMap.mp h
  rw [tokenPieces] at hpiece
  split at hpiece
  · rename_i hsome
    obtain ⟨n, hn⟩ := Option.isSome_iff_exists.mp hsome
    cases List.mem_singleton.mp hpiece
    exact ⟨token, n, htoken, hn, rfl⟩
  · obtain ⟨c, -, hc⟩ := List.mem_map.mp hpiece
    cases hc

/-- The text with its parameters replaced is the one with their holes filled. -/
theorem fill_parameterPieces (hlength : literals.length < 2 ^ 64)
    (hbound : ∀ n ∈ parameters sql, n ≤ literals.length) :
  fill (valueOf (placeholderLiteral (literalAt literals))) (parameterPieces sql)
    = (tokens sql.toList).flatMap (substituted literals)
  := by
  apply fill_flatMap_tokenPieces
  intro token htoken n hn
  rw [valueOf, placeholderLiteral_hole hlength hbound htoken hn]
  rfl

/-- The text that is rendered is the expected one exactly when all of it is ASCII and the
placeholders outside of single quotes are the parameters. -/
theorem rendered_iff (hliterals : ∀ text ∈ literals, IsLiteral text)
    (hlength : literals.length < 2 ^ 64) (hbound : ∀ n ∈ parameters sql, n ≤ literals.length) :
  renderSqlWithLiterals (literalAt literals) sql = .ok (expectedSql literals sql)
    ↔ (∀ c ∈ sql.toList, c.toNat < 128)
      ∧ ∀ before d rest, sql.toList = before ++ '$' :: d :: rest → d.isDigit = true →
          (before.count '\'' % 2 = 0 ↔ StartsParameter sql before)
  := by
  have htells : ∀ digits, (∃ literal,
      placeholderLiteral (literalAt literals) digits = .ok literal) →
      Tells (valueOf (placeholderLiteral (literalAt literals)) digits) := by
    rintro digits ⟨literal, hliteral⟩
    obtain ⟨text, htext, rfl⟩ := placeholderLiteral_ok hliteral
    rw [valueOf, hliteral]
    exact (hliterals text htext).tells
  have hholes : ∀ digits, Piece.hole digits ∈ parameterPieces sql →
      ∃ literal, placeholderLiteral (literalAt literals) digits = .ok literal := by
    intro digits hdigits
    obtain ⟨token, n, htoken, hn, rfl⟩ := exists_of_hole_mem hdigits
    exact ⟨_, placeholderLiteral_hole hlength hbound htoken hn⟩
  rw [renderSqlWithLiterals, renderFrom_eq]
  constructor
  · intro h
    obtain ⟨rendered, hrendered, h⟩ := Except.bind_eq_ok_iff.mp h
    obtain ⟨hvalues, rfl⟩ := fillWith_eq_ok_iff.mp hrendered
    have hfill : [] ++ fill (valueOf (placeholderLiteral (literalAt literals)))
          (quotedPieces false (bytesAsChars sql))
        = fill (valueOf (placeholderLiteral (literalAt literals))) (parameterPieces sql) := by
      rw [fill_parameterPieces hlength hbound]
      exact String.ofList_injective (Except.ok.inj h)
    obtain ⟨-, hpieces, hascii⟩ := eq_of_fill_eq (fun c => charBytes_ascii)
      (fun c => charBytes_other) (greedy_parameterPieces sql)
      (greedy_quotedPieces false (bytesAsChars sql))
      (by rw [source_quotedPieces, source_parameterPieces, bytesAsChars])
      (fun digits hdigits => htells digits (hholes digits hdigits))
      (fun digits hdigits => htells digits (hvalues digits hdigits))
      (by simp) hfill
    rw [source_parameterPieces] at hascii
    refine ⟨hascii, ?_⟩
    intro before d rest hsql hd
    rw [← holeAt_parameterPieces, ← hpieces, holeAt_quotedPieces, bytesAsChars_ascii hascii,
      quoteOpen_eq_false_iff]
    simp only [Bool.false_eq_true, if_false, iff_and_self]
    intro _
    exact ⟨d, rest, hsql, hd⟩
  · rintro ⟨hascii, hquotes⟩
    have hpieces : quotedPieces false (bytesAsChars sql) = parameterPieces sql := by
      rw [bytesAsChars_ascii hascii]
      apply eq_of_holeAt_iff (greedy_quotedPieces false sql.toList) (greedy_parameterPieces sql)
      · rw [source_quotedPieces, source_parameterPieces]
      · intro before
        rw [holeAt_quotedPieces, quoteOpen_eq_false_iff, holeAt_parameterPieces]
        simp only [Bool.false_eq_true, if_false]
        constructor
        · rintro ⟨⟨d, rest, hsql, hd⟩, hcount⟩
          exact (hquotes before d rest hsql hd).mp hcount
        · intro hstarts
          obtain ⟨d, rest, hsql, hd⟩ := source_of_holeAt (greedy_parameterPieces sql)
            ((holeAt_parameterPieces sql before).mpr hstarts)
          rw [source_parameterPieces] at hsql
          exact ⟨⟨d, rest, hsql, hd⟩, (hquotes before d rest hsql hd).mpr hstarts⟩
    rw [hpieces, fillWith_eq_ok_iff.mpr ⟨hholes, rfl⟩, fill_parameterPieces hlength hbound]
    rfl

/-- The tokens of the expected text are the expected ones exactly when no literal runs into what
stands next to it. -/
theorem tokens_eq_iff (hliterals : ∀ text ∈ literals, IsLiteral text)
    (hbound : ∀ n ∈ parameters sql, n ≤ literals.length) :
  tokens (expectedSql literals sql).toList
      = (tokens sql.toList).flatMap (substitutedTokens literals)
    ↔ ((tokens sql.toList).map (substituted literals)).IsChain lexer.Breaks
  := by
  have htokens : (tokens sql.toList).flatMap (substitutedTokens literals)
      = ((tokens sql.toList).map (substituted literals)).flatMap lexer.tokens := by
    rw [List.flatMap_map]
    apply List.flatMap_congr
    intro token htoken
    rw [substitutedTokens, substituted]
    cases parameterOf token with
    | none => exact (Scanner.tokens_text_of_mem htoken).symm
    | some n => rfl
  have hne : ∀ text ∈ (tokens sql.toList).map (substituted literals), text ≠ [] := by
    intro text htext
    obtain ⟨token, htoken, rfl⟩ := List.mem_map.mp htext
    rw [substituted]
    cases hparameter : parameterOf token with
    | none => exact Scanner.text_ne_nil_of_mem_tokens htoken
    | some n =>
        have hle := hbound n (List.mem_filterMap.mpr ⟨token, htoken, hparameter⟩)
        have hnonzero := (mode_of_parameterOf hparameter).2.2
        have hlt : n - 1 < literals.length := by omega
        obtain ⟨c, rest, hliteral, -⟩ := (hliterals _ (List.getElem_mem hlt)).tells
        simp [literalText, List.getElem?_eq_getElem hlt, hliteral]
  rw [← Scanner.tokens_flatten_iff hne, htokens, expectedSql, String.toList_ofList, tokens,
    List.flatMap_def]

/-- The count is the largest parameter exactly when no placeholder has a larger number. -/
theorem count_eq_iff (hascii : ∀ c ∈ sql.toList, c.toNat < 128)
    (hlength : literals.length < 2 ^ 64) (hbound : ∀ n ∈ parameters sql, n ≤ literals.length) :
  referencedParameterCount sql = largestParameter sql
    ↔ PlaceholdersAtMost (largestParameter sql) sql.toList
  := by
  have hcount : PlaceholdersAtMost (largestParameter sql) sql.toList
      ↔ referencedParameterCount sql ≤ largestParameter sql := by
    rw [referencedParameterCount, bytesAsChars_ascii hascii, countFrom_le_iff]
    simp
  have hle : largestParameter sql ≤ referencedParameterCount sql := by
    rw [largestParameter, foldl_max_le_iff]
    refine ⟨Nat.zero_le _, ?_⟩
    intro n hn
    apply le_of_placeholdersAtMost _ hn ((hbound n hn).trans_lt hlength)
    rw [referencedParameterCount, bytesAsChars_ascii hascii]
    exact ((countFrom_le_iff 0).mp (le_refl _)).2
  rw [hcount]
  constructor
  · intro heq
    exact heq.le
  · intro hge
    exact Nat.le_antisymm hge hle

/-- A statement is rendered exactly, whatever literals its parameters have, if and only if all of
it is ASCII, single quotes decide which of its placeholders are parameters, no literal runs into
what stands next to it, and no placeholder has a larger number than the parameters. -/
theorem tokenExact_iff_scannable (hliterals : ∀ text ∈ literals, IsLiteral text)
    (hlength : literals.length < 2 ^ 64) (hbound : ∀ n ∈ parameters sql, n ≤ literals.length) :
  TokenExact sql literals ↔ Scannable sql literals
  := by
  constructor
  · intro h
    obtain ⟨hascii, hquotes⟩ := (rendered_iff hliterals hlength hbound).mp h.rendered
    exact ⟨hascii, hquotes, (tokens_eq_iff hliterals hbound).mp h.tokens_eq,
      (count_eq_iff hascii hlength hbound).mp h.count_eq⟩
  · intro h
    exact ⟨(rendered_iff hliterals hlength hbound).mpr ⟨h.ascii, h.quotes⟩,
      (tokens_eq_iff hliterals hbound).mpr h.apart,
      (count_eq_iff h.ascii hlength hbound).mpr h.largest⟩

end

/-- A portal with a text. -/
def samplePortal : Portal :=
  { bool := fun _ => .ok none
    int := fun _ => .ok none
    float := fun _ => .ok none
    text := fun _ => .ok (some "it's") }

theorem tokenExact_iff_scannable_where :
  Scannable "SELECT a FROM t WHERE a = $1 AND b <> '$1'" ["'it''s'"]
  := by
  have hliterals : ∀ text ∈ ["'it''s'"], IsLiteral text := by
    intro text htext
    obtain rfl := List.mem_singleton.mp htext
    exact .bound samplePortal 0 .text (by decide)
  have hbound : ∀ n ∈ parameters "SELECT a FROM t WHERE a = $1 AND b <> '$1'",
      n ≤ ["'it''s'"].length := by
    decide +kernel
  exact (tokenExact_iff_scannable hliterals (by decide) hbound).mp
    ⟨by decide +kernel, by decide +kernel, by decide +kernel⟩

/-- Text outside ASCII is spoilt, a placeholder in a comment is replaced, `$0` fails, a negative
number after a minus sign starts a comment, and a placeholder in a string is counted. -/
theorem rendering_inexact :
  ¬ TokenExact "SELECT 'é'" []
    ∧ ¬ TokenExact "SELECT 1 -- $1" ["0"]
    ∧ ¬ TokenExact "SELECT $0" []
    ∧ ¬ TokenExact "SELECT 1-$1" ["-5"]
    ∧ ¬ TokenExact "SELECT $1, '$2'" ["0", "0"]
  := by
  refine ⟨?_, ?_, ?_, ?_, ?_⟩
  · intro h
    exact absurd h.rendered (by decide +kernel)
  · intro h
    exact absurd h.rendered (by decide +kernel)
  · intro h
    exact absurd h.rendered (by decide +kernel)
  · intro h
    exact absurd h.tokens_eq (by decide +kernel)
  · intro h
    exact absurd h.count_eq (by decide +kernel)
