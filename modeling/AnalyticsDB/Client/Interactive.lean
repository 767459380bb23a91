import AnalyticsDB.Control.CatalogFile
import AnalyticsDB.Lib.SqlStatements

/-!
# The interactive client

The client reads lines, gathers them in a buffer and executes the buffer when it ends with a
semicolon.  A line that starts with a backslash is a meta command, and some of these denote a query.
The text of such a query is put into the buffer with the line of the command after it, and the
search for the semicolon knows strings and quoted identifiers but not comments.  So what is executed
are the queries that were denoted and the statements that were typed, in their order, as long as no
meta command denotes a query, no comment has a quote or a semicolon, and only white space follows a
semicolon in its line.
-/

namespace Client

open SqlStatements

/-! ### Meta commands -/

/-- The options of the client that meta commands change, and the text last executed. -/
structure ClientOptions where
  timing : Bool
  vars : List (String × String)
  watchInterval : Option Nat
  lastSql : Option String
  deriving DecidableEq, Repr

/-- The options the client starts with. -/
def ClientOptions.fromInteractive (timing : Bool) : ClientOptions := ⟨timing, [], none, none⟩

inductive MetaCommandAction where
  | continue
  | quit
  | executeSql (sql : String)
  deriving DecidableEq, Repr

/-- The parts of a text between white space. -/
def splitWhitespace (text : String) : List String :=
  ((text.toList.splitOnP isWhiteSpace).filter (· ≠ [])).map String.ofList

def unknownMetaCommand (command : String) : String :=
  s!"unknown meta command '{command}'. Type \\? for available commands."

def handleMetaCommand (command : String) (options : ClientOptions) :
    Except String (MetaCommandAction × ClientOptions) :=
  match splitWhitespace (trimWhiteSpace command) with
  | ["\\timing"] => .ok (.continue, { options with timing := !options.timing })
  | ["\\timing", value] =>
    if asciiLower value = "on" then .ok (.continue, { options with timing := true })
    else if asciiLower value = "off" then .ok (.continue, { options with timing := false })
    else .error (unknownMetaCommand command)
  | ["\\q"] | ["\\quit"] => .ok (.quit, options)
  | ["\\?"] | ["\\help"] => .ok (.continue, options)
  | ["\\conninfo"] => .ok (.continue, options)
  | ["\\d", table] => .ok (.executeSql s!"SHOW COLUMNS FROM {table}", options)
  | ["\\dn"] => .ok (.executeSql "SHOW SCHEMAS", options)
  | ["\\du"] =>
    .ok (.executeSql
      "SELECT rolname, rolsuper, rolcreatedb, rolcanlogin FROM pg_roles ORDER BY rolname", options)
  | ["\\set"] => .ok (.continue, options)
  | ["\\set", var, value] =>
    .ok (.continue,
      { options with vars := (var, value) :: options.vars.filter (·.1 ≠ var) })
  | ["\\set", var] =>
    .ok (.continue, { options with vars := options.vars.filter (·.1 ≠ var) })
  | ["\\watch"] => .ok (.continue, { options with watchInterval := some 2 })
  | ["\\watch", seconds] =>
    .ok (.continue, { options with watchInterval := some ((parseU64 seconds).getD 2) })
  | _ => .error (unknownMetaCommand command)

/-- A meta command denotes a query. -/
def denotesQuery (command : String) (options : ClientOptions) : Bool :=
  match handleMetaCommand command options with
  | .ok (.executeSql _, _) => true
  | _ => false

/-! ### The end of a statement -/

/-- What a scan for the end of a statement has found. -/
structure StatementScan where
  inSingleQuote : Bool
  inDoubleQuote : Bool
  lastSignificant : Option Char
  deriving DecidableEq, Repr

/-- The scan after one more character, which is not the first of a doubled quote. -/
def StatementScan.read (scan : StatementScan) (ch : Char) : StatementScan :=
  let inSingleQuote :=
    if ch = '\'' && !scan.inDoubleQuote then !scan.inSingleQuote else scan.inSingleQuote
  let inDoubleQuote :=
    if ch = '"' && !scan.inSingleQuote then !scan.inDoubleQuote else scan.inDoubleQuote
  { inSingleQuote, inDoubleQuote
    lastSignificant :=
      if !isWhiteSpace ch && !inSingleQuote && !inDoubleQuote then some ch
      else scan.lastSignificant }

def scanStatement (scan : StatementScan) : List Char → StatementScan
  | [] => scan
  | [ch] => scan.read ch
  | ch :: following :: rest =>
    if ch = '\'' && !scan.inDoubleQuote && scan.inSingleQuote && following = '\'' then
      scanStatement scan rest
    else
      scanStatement (scan.read ch) (following :: rest)

def StatementScan.isComplete (scan : StatementScan) : Bool :=
  scan.lastSignificant = some ';' && !scan.inSingleQuote && !scan.inDoubleQuote

def sqlStatementIsComplete (sql : String) : Bool :=
  (scanStatement ⟨false, false, none⟩ sql.toList).isComplete

example : sqlStatementIsComplete "INSERT INTO t VALUES ('it''s done');" = true
    ∧ sqlStatementIsComplete "SELECT 'unterminated;" = false := by decide +kernel

/-! ### Lines -/

/-- What becomes of a text that is executed. -/
inductive Outcome where
  | answered
  | failed
  /-- The answer cannot be written to the output file. -/
  | notWritten
  deriving DecidableEq, Repr

/-- What the client does next. -/
inductive Status where
  | reading
  /-- It executes its last text again and again, and reads nothing any more. -/
  | watching
  | left
  deriving DecidableEq, Repr

/-- The state of the client without its buffer: its options, and the texts it has executed. -/
structure Dialogue where
  options : ClientOptions
  executed : List String
  status : Status
  deriving DecidableEq, Repr

/-- What `readline` gives. -/
inductive Input where
  | line (text : String)
  | interrupted
  | eof
  | error
  deriving DecidableEq, Repr

section

-- the outcome of the last of the texts that were executed
variable (outcome : List String → Outcome)

/-- Execute a text and show the answer. -/
def Dialogue.executeSql (d : Dialogue) (sql : String) : Dialogue :=
  let options := { d.options with lastSql := some sql }
  let executed := d.executed ++ [sql]
  match outcome executed with
  | .failed => { options, executed, status := .reading }
  | .notWritten => { options, executed, status := .left }
  | .answered =>
    { options, executed, status := if options.watchInterval.isSome then .watching else .reading }

/-- The client between two lines. -/
structure Session where
  buffer : String
  dialogue : Dialogue
  deriving DecidableEq, Repr

/-- A text has only white space. -/
def isBlank (text : String) : Bool := text.toList.all isWhiteSpace

/-- The line is a meta command. -/
def Session.takesMetaCommand (s : Session) (line : String) : Bool :=
  isBlank s.buffer && (trimWhiteSpace line).toList.head? = some '\\'

/-- Put a line into the buffer, and execute the buffer when it is complete. -/
def Session.pushLine (s : Session) (line : String) : Session :=
  if isBlank line && isBlank s.buffer then s
  else
    let buffer := s.buffer ++ line ++ "\n"
    if sqlStatementIsComplete buffer then
      { buffer := "", dialogue := s.dialogue.executeSql outcome (trimWhiteSpace buffer) }
    else { s with buffer }

def Session.readLine (s : Session) (line : String) : Session :=
  if s.takesMetaCommand line then
    match handleMetaCommand (trimWhiteSpace line) s.dialogue.options with
    | .error _ => { s with dialogue := { s.dialogue with status := .left } }
    | .ok (.continue, options) => { s with dialogue := { s.dialogue with options } }
    | .ok (.quit, options) => { s with dialogue := { s.dialogue with options, status := .left } }
    | .ok (.executeSql sql, options) =>
      -- the line itself follows the text of the query
      Session.pushLine outcome
        { buffer := sql ++ "\n", dialogue := { s.dialogue with options } } line
  else s.pushLine outcome line

/-- One turn of the loop of the client. -/
def Session.runInteractive (input : Input) (s : Session) : Session :=
  if s.dialogue.status = .reading then
    match input with
    | .line text => s.readLine outcome text
    | .interrupted => if isBlank s.buffer then s else { s with buffer := "" }
    | .eof | .error => { s with dialogue := { s.dialogue with status := .left } }
  else s

def Session.start (options : ClientOptions) : Session := ⟨"", ⟨options, [], .reading⟩⟩

/-! ### What is to be executed -/

/-- A client that cuts what is typed into statements by the rules of SQL. -/
structure Typing where
  typed : List Char
  dialogue : Dialogue
  deriving DecidableEq, Repr

/-- Execute texts one after another, as long as the client reads on. -/
def Dialogue.executeAll (d : Dialogue) : List String → Dialogue
  | [] => d
  | sql :: sqls =>
    if d.status = .reading then Dialogue.executeAll (d.executeSql outcome sql) sqls else d

/-- Execute each statement that ends in the line.  What follows the last one is kept, unless it is
white space and comments. -/
def Typing.typeLine (t : Typing) (line : String) : Typing :=
  let text := t.typed ++ (line ++ "\n").toList
  let cuts := cut text
  { typed := if complete text || cuts.2.all isWhiteSpace then [] else cuts.2
    dialogue := t.dialogue.executeAll outcome
      (cuts.1.map (fun statement => trimWhiteSpace (String.ofList statement))) }

/-- Execute the query a meta command denotes, or take the line as typed. -/
def Typing.readLine (t : Typing) (line : String) : Typing :=
  if t.typed.all isWhiteSpace && (trimWhiteSpace line).toList.head? = some '\\' then
    match handleMetaCommand (trimWhiteSpace line) t.dialogue.options with
    | .error _ => { t with dialogue := { t.dialogue with status := .left } }
    | .ok (.continue, options) => { t with dialogue := { t.dialogue with options } }
    | .ok (.quit, options) => { t with dialogue := { t.dialogue with options, status := .left } }
    | .ok (.executeSql sql, options) =>
      { t with dialogue := Dialogue.executeSql outcome { t.dialogue with options } sql }
  else t.typeLine outcome line

def Typing.step (input : Input) (t : Typing) : Typing :=
  if t.dialogue.status = .reading then
    match input with
    | .line text => t.readLine outcome text
    | .interrupted => { t with typed := [] }
    | .eof | .error => { t with dialogue := { t.dialogue with status := .left } }
  else t

def Typing.start (options : ClientOptions) : Typing := ⟨[], ⟨options, [], .reading⟩⟩

end

/-- A line is no meta command that denotes a query, and what it adds to the buffer is plain: it has
no quote or semicolon in a comment, and only white space after a semicolon outside of comments,
strings and quoted identifiers. -/
def Session.TakesPlainly (line : String) (s : Session) : Prop :=
  if s.takesMetaCommand line then
    denotesQuery (trimWhiteSpace line) s.dialogue.options = false
  else Plain (line ++ "\n").toList (reading s.buffer.toList)

instance (line : String) (s : Session) : Decidable (s.TakesPlainly line) :=
  inferInstanceAs (Decidable (if s.takesMetaCommand line then
    denotesQuery (trimWhiteSpace line) s.dialogue.options = false
  else Plain (line ++ "\n").toList (reading s.buffer.toList)))

/-- A line that is read is taken plainly. -/
def Session.EntersPlainly (input : Input) (s : Session) : Prop :=
  match input with
  | .line text => s.dialogue.status = .reading → s.TakesPlainly text
  | _ => True

instance (s : Session) : (input : Input) → Decidable (s.EntersPlainly input)
  | .line text => inferInstanceAs (Decidable (s.dialogue.status = .reading → s.TakesPlainly text))
  | .interrupted | .eof | .error => .isTrue trivial

/-! ### The scan and the reading -/

/-- The scan of the client and the reading agree. -/
structure InStep (r : Reading) (scan : StatementScan) : Prop where
  single : scan.inSingleQuote = decide (r.mode = .string)
  double : scan.inDoubleQuote = decide (r.mode = .identifier)
  last : r.mode ≠ .string → r.mode ≠ .identifier →
    (scan.lastSignificant = some ';' ↔ r.terminated = true)
  code : r.terminated = true → r.mode = .code

/-- The scan of a character that is no quote, outside of quotes. -/
theorem read_unquoted {scan : StatementScan} {c : Char} (hsingle : scan.inSingleQuote = false)
    (hdouble : scan.inDoubleQuote = false) (hquote : c ≠ '\'') (hquotes : c ≠ '"') :
  scan.read c
    = ⟨false, false, if isWhiteSpace c then scan.lastSignificant else some c⟩
  := by
  simp only [StatementScan.read, hsingle, hdouble, hquote, hquotes, decide_false,
    Bool.false_eq_true, if_false, Bool.not_false, Bool.and_true]
  cases isWhiteSpace c
  · rfl
  · rfl

theorem inStep_readCode {scan : StatementScan} {terminated : Bool} {c : Char}
    (hsingle : scan.inSingleQuote = false) (hdouble : scan.inDoubleQuote = false)
    (hlast : scan.lastSignificant = some ';' ↔ terminated = true)
    (hspace : terminated = true → isWhiteSpace c = true) :
  InStep (readCode terminated c) (scan.read c)
  := by
  have hterminated : isWhiteSpace c = false → terminated = false := by
    intro h
    cases terminated with
    | false => rfl
    | true => rw [hspace rfl] at h; cases h
  by_cases hquote : c = '\''
  · subst hquote
    constructor
    · simp [StatementScan.read, readCode, hsingle, hdouble]
    · simp [StatementScan.read, readCode, hsingle, hdouble]
    · simp [readCode]
    · simp [readCode]
  by_cases hquotes : c = '"'
  · subst hquotes
    constructor
    · simp [StatementScan.read, readCode, hsingle, hdouble]
    · simp [StatementScan.read, readCode, hsingle, hdouble]
    · simp [readCode]
    · simp [readCode]
  rw [read_unquoted hsingle hdouble hquote hquotes]
  by_cases hdash : c = '-'
  · subst hdash
    rw [hterminated rfl]
    constructor
    · rfl
    · rfl
    · intro _ _
      simp [readCode, show isWhiteSpace '-' = false from rfl]
    · decide
  by_cases hslash : c = '/'
  · subst hslash
    rw [hterminated rfl]
    constructor
    · rfl
    · rfl
    · intro _ _
      simp [readCode, show isWhiteSpace '/' = false from rfl]
    · decide
  rw [readCode, if_neg hquote, if_neg hquotes, if_neg hdash, if_neg hslash]
  cases hwhite : isWhiteSpace c with
  | true => exact ⟨rfl, rfl, fun _ _ => hlast, fun _ => rfl⟩
  | false =>
      refine ⟨rfl, rfl, fun _ _ => ?_, fun _ => rfl⟩
      simp

/-- After the first character of a comment's opening, the second one starts the comment, and any
other is read as code. -/
theorem inStep_opening {scan : StatementScan} {c d : Char} {comment : Mode}
    (hsingle : scan.inSingleQuote = false) (hdouble : scan.inDoubleQuote = false)
    (hlast : scan.lastSignificant = some ';' ↔ false = true) (hcomment : comment.isComment = true)
    (hquote : d ≠ '\'') (hquotes : d ≠ '"') (hsemicolon : d ≠ ';')
    (hspace : isWhiteSpace d = false) :
  InStep (if c = d then ⟨comment, false⟩ else readCode false c) (scan.read c)
  := by
  split
  case isTrue hc =>
    subst hc
    rw [read_unquoted hsingle hdouble hquote hquotes]
    refine ⟨?_, ?_, fun _ _ => by simp [hspace, hsemicolon], fun h => nomatch h⟩
    · cases comment with
      | string => cases hcomment
      | _ => rfl
    · cases comment with
      | identifier => cases hcomment
      | _ => rfl
  case isFalse => exact inStep_readCode hsingle hdouble hlast (fun h => nomatch h)

theorem next_of_isComment {r : Reading} (h : r.mode.isComment = true) (c : Char) :
  (next r c).terminated = r.terminated ∧ (next r c).mode ≠ .string
    ∧ (next r c).mode ≠ .identifier
  := by
  have hblock : ∀ depth, readBlock depth c ≠ .string ∧ readBlock depth c ≠ .identifier := by
    intro depth
    rw [readBlock]
    repeat' split
    all_goals simp
  have hleave : ∀ depth, leaveBlock depth ≠ .string ∧ leaveBlock depth ≠ .identifier := by
    rintro (_ | depth)
    · simp [leaveBlock]
    · simp [leaveBlock]
  rw [next]
  split
  case h_6 hmode =>
    split
    · simp
    · simp [hmode]
  case h_7 depth _ => exact ⟨rfl, hblock depth⟩
  case h_8 depth _ =>
    refine ⟨rfl, ?_⟩
    split
    · exact hleave depth
    · exact hblock depth
  case h_9 depth _ =>
    refine ⟨rfl, ?_⟩
    split
    · simp
    · exact hblock depth
  all_goals
    rename_i hmode
    rw [hmode] at h
    cases h

/-- The scan and the reading agree after one more character when it is plain. -/
theorem InStep.read {r : Reading} {scan : StatementScan} {c : Char} (h : InStep r scan)
    (hplain : PlainChar c r) :
  InStep (next r c) (scan.read c)
  := by
  obtain ⟨hsingle, hdouble, hlast, hcode⟩ := h
  cases hcomment : r.mode.isComment with
  | true =>
      have hstring : r.mode ≠ .string := by
        intro hmode
        rw [hmode] at hcomment
        cases hcomment
      have hidentifier : r.mode ≠ .identifier := by
        intro hmode
        rw [hmode] at hcomment
        cases hcomment
      have hterminated : r.terminated = false := by
        by_contra hne
        rw [hcode (by simpa using hne)] at hcomment
        cases hcomment
      obtain ⟨hquote, hquotes, hsemicolon⟩ := hplain.1 hcomment
      obtain ⟨hkept, hstring', hidentifier'⟩ := next_of_isComment hcomment c
      rw [read_unquoted (by simp [hsingle, hstring]) (by simp [hdouble, hidentifier]) hquote
        hquotes]
      refine ⟨by simp [hstring'], by simp [hidentifier'], fun _ _ => ?_, fun h => ?_⟩
      · rw [hkept, ← hlast hstring hidentifier]
        cases isWhiteSpace c with
        | true => rfl
        | false =>
            have hne : scan.lastSignificant ≠ some ';' := by
              rw [Ne, hlast hstring hidentifier, hterminated]
              simp
            simp [hsemicolon, hne]
      · rw [hkept, hterminated] at h
        cases h
  | false =>
      obtain ⟨mode, terminated⟩ := r
      cases mode with
      | code => exact inStep_readCode hsingle hdouble (hlast (by simp) (by simp)) hplain.2
      | dash =>
          obtain rfl : terminated = false := by
            cases terminated with
            | false => rfl
            | true => cases hcode rfl
          exact inStep_opening hsingle hdouble (hlast (by simp) (by simp)) rfl (by decide)
            (by decide) (by decide) rfl
      | slash =>
          obtain rfl : terminated = false := by
            cases terminated with
            | false => rfl
            | true => cases hcode rfl
          exact inStep_opening hsingle hdouble (hlast (by simp) (by simp)) rfl (by decide)
            (by decide) (by decide) rfl
      | string =>
          have hsingle : scan.inSingleQuote = true := hsingle
          have hdouble : scan.inDoubleQuote = false := hdouble
          rw [next]
          dsimp only
          split
          case isTrue hquote =>
            subst hquote
            constructor
            · simp [StatementScan.read, hsingle, hdouble]
            · simp [StatementScan.read, hsingle, hdouble]
            · simp [StatementScan.read, hsingle, hdouble, show isWhiteSpace '\'' = false from rfl]
            · simp
          case isFalse hquote =>
            constructor
            · simp [StatementScan.read, hsingle, hquote]
            · simp [StatementScan.read, hsingle, hdouble]
            · intro h
              exact absurd rfl h
            · exact hcode
      | identifier =>
          have hsingle : scan.inSingleQuote = false := hsingle
          have hdouble : scan.inDoubleQuote = true := hdouble
          rw [next]
          dsimp only
          split
          case isTrue hquotes =>
            subst hquotes
            constructor
            · simp [StatementScan.read, hsingle, hdouble]
            · simp [StatementScan.read, hsingle, hdouble]
            · simp [StatementScan.read, hsingle, hdouble, show isWhiteSpace '"' = false from rfl]
            · simp
          case isFalse hquotes =>
            constructor
            · simp [StatementScan.read, hsingle, hdouble]
            · simp [StatementScan.read, hdouble, hquotes]
            · intro _ h
              exact absurd rfl h
            · exact hcode
      | _ => cases hcomment

theorem InStep.scan {text : List Char} {r : Reading} {scan : StatementScan} (h : InStep r scan)
    (hplain : Plain text r) :
  InStep (text.foldl next r) (scanStatement scan text)
  := by
  induction scan, text using scanStatement.induct generalizing r with
  | case1 scan => exact h
  | case2 scan ch => exact h.read hplain.1
  | case3 scan ch following rest hdoubled ih =>
      -- a doubled quote: the reading leaves the string and enters it again
      rw [scanStatement, if_pos hdoubled]
      simp only [Bool.and_eq_true, Bool.not_eq_true', decide_eq_true_eq] at hdoubled
      obtain ⟨⟨⟨rfl, -⟩, hsingle⟩, rfl⟩ := hdoubled
      have hmode : r.mode = .string := of_decide_eq_true (h.single.symm.trans hsingle)
      have hleft : next r '\'' = ⟨.code, false⟩ := by
        rw [next, hmode]
        rfl
      have hnext : next (next r '\'') '\'' = ⟨.string, false⟩ := by
        rw [hleft]
        rfl
      have hrest : Plain rest (next (next r '\'') '\'') := hplain.2.2
      rw [List.foldl_cons, List.foldl_cons]
      rw [hnext] at hrest ⊢
      apply ih _ hrest
      exact ⟨hsingle, by rw [h.double, hmode], fun h => absurd rfl h, fun h => by cases h⟩
  | case4 scan ch following rest hsimple ih =>
      rw [scanStatement, if_neg hsimple, List.foldl_cons]
      exact ih (h.read hplain.1) hplain.2

/-- On a plain text, the client knows the end of a statement. -/
theorem sqlStatementIsComplete_eq {sql : String} (h : Plain sql.toList SqlStatements.start) :
  sqlStatementIsComplete sql = complete sql.toList
  := by
  have hstart : InStep SqlStatements.start ⟨false, false, none⟩ :=
    ⟨rfl, rfl, fun _ _ => by simp [SqlStatements.start], fun h => nomatch h⟩
  obtain ⟨hsingle, hdouble, hlast, hcode⟩ := hstart.scan h
  rw [sqlStatementIsComplete, StatementScan.isComplete, hsingle, hdouble, complete, reading,
    Bool.eq_iff_iff]
  simp only [Bool.and_eq_true, Bool.or_eq_true, Bool.not_eq_true', decide_eq_true_eq,
    decide_eq_false_iff_not]
  constructor
  · rintro ⟨⟨hsemicolon, hstring⟩, hidentifier⟩
    have hterminated := (hlast hstring hidentifier).mp hsemicolon
    exact ⟨hterminated, .inl (hcode hterminated)⟩
  · rintro ⟨hterminated, -⟩
    have hmode := hcode hterminated
    have hstring : (sql.toList.foldl next SqlStatements.start).mode ≠ .string := by
      rw [hmode]
      simp
    have hidentifier : (sql.toList.foldl next SqlStatements.start).mode ≠ .identifier := by
      rw [hmode]
      simp
    exact ⟨⟨(hlast hstring hidentifier).mpr hterminated, hstring⟩, hidentifier⟩

/-! ### The two clients -/

/-- The client and the one that cuts what is typed are at the same point. -/
structure Follows (s : Session) (t : Typing) : Prop where
  typed : s.buffer.toList = t.typed
  dialogue : s.dialogue = t.dialogue
  plain : Plain t.typed SqlStatements.start
  unterminated : (reading t.typed).terminated = false
  fresh : t.typed.all isWhiteSpace = true → t.typed = []

theorem follows_nil (dialogue : Dialogue) :
  Follows ⟨"", dialogue⟩ ⟨[], dialogue⟩
  := ⟨rfl, rfl, trivial, rfl, fun _ => rfl⟩

theorem follows_pushLine {outcome : List String → Outcome} {s : Session} {t : Typing}
    {line : String} (h : Follows s t) (hreading : s.dialogue.status = .reading)
    (hplain : Plain (line ++ "\n").toList (reading s.buffer.toList)) :
  Follows (s.pushLine outcome line) (t.typeLine outcome line)
  := by
  obtain ⟨buffer, dialogue⟩ := s
  obtain ⟨typed, dialogue⟩ := t
  obtain rfl : _ = dialogue := h.dialogue
  obtain rfl : buffer.toList = typed := h.typed
  have htext : (buffer ++ line ++ "\n").toList = buffer.toList ++ (line ++ "\n").toList := by
    simp only [String.toList_append, List.append_assoc]
  have hwhole : Plain (buffer.toList ++ (line ++ "\n").toList) SqlStatements.start :=
    (Run.allAllowed_append _ _ _).mpr ⟨h.plain, hplain⟩
  have hblank : (buffer.toList ++ (line ++ "\n").toList).all isWhiteSpace
      = (isBlank line && isBlank buffer) := by
    have hnewline : isWhiteSpace '\n' = true := rfl
    simp [isBlank, String.toList_append, hnewline, Bool.and_comm]
  have hbreak : ¬ (isBlank line && isBlank buffer) = true →
      (buffer.toList ++ (line ++ "\n").toList).all isWhiteSpace = false := by
    intro hne
    rw [hblank]
    simpa using hne
  rw [Session.pushLine, Typing.typeLine]
  dsimp only
  by_cases hskip : (isBlank line && isBlank buffer) = true
  · -- a blank line where nothing was typed
    rw [if_pos hskip]
    have hspace : ∀ c ∈ buffer.toList ++ (line ++ "\n").toList, isWhiteSpace c = true :=
      List.all_eq_true.mp (hblank.trans hskip)
    have hempty : buffer.toList = [] := by
      apply h.fresh
      rw [List.all_eq_true]
      intro c hc
      exact hspace c (List.mem_append_left _ hc)
    rw [cut_whiteSpace hspace, hblank.trans hskip, Bool.or_true, if_pos rfl]
    obtain rfl : buffer = "" := String.toList_inj.mp hempty
    apply follows_nil
  rw [if_neg hskip]
  have hcomplete : sqlStatementIsComplete (buffer ++ line ++ "\n")
      = complete (buffer.toList ++ (line ++ "\n").toList) := by
    rw [← htext]
    apply sqlStatementIsComplete_eq
    rw [htext]
    exact hwhole
  rw [hcomplete]
  obtain ⟨hnone, hterminated⟩ | ⟨statement, space, hstatement, hspace, hone, hclosed⟩ :=
    Plain.cut hwhole
  · have hopen : complete (buffer.toList ++ (line ++ "\n").toList) = false := by
      rw [complete, hterminated, Bool.false_and]
    have hbreak : (buffer.toList ++ (line ++ "\n").toList).all isWhiteSpace = false := by
      rw [hblank]
      simpa using hskip
    rw [hnone, hopen, hbreak, Bool.or_false, if_neg Bool.false_ne_true, if_neg Bool.false_ne_true]
    refine ⟨htext, rfl, hwhole, hterminated, fun h => ?_⟩
    rw [hbreak] at h
    cases h
  · have htrim : trimWhiteSpace (buffer ++ line ++ "\n")
        = trimWhiteSpace (String.ofList statement) := by
      rw [← String.ofList_toList (s := buffer ++ line ++ "\n"), htext, hstatement]
      apply trimWhiteSpace_append hspace
    rw [hone, hclosed, Bool.true_or, if_pos rfl, if_pos rfl, htrim, List.map_singleton,
      Dialogue.executeAll, if_pos hreading, Dialogue.executeAll]
    apply follows_nil

theorem follows_readLine {outcome : List String → Outcome} {s : Session} {t : Typing}
    {line : String} (h : Follows s t) (hreading : s.dialogue.status = .reading)
    (hplain : s.TakesPlainly line) :
  Follows (s.readLine outcome line) (t.readLine outcome line)
  := by
  have hmeta : (t.typed.all isWhiteSpace && (trimWhiteSpace line).toList.head? = some '\\')
      = s.takesMetaCommand line := by
    rw [Session.takesMetaCommand, isBlank, h.typed]
  rw [Session.TakesPlainly] at hplain
  rw [Session.readLine, Typing.readLine, hmeta, ← h.dialogue]
  split
  case isFalse hline =>
    rw [if_neg hline] at hplain
    exact follows_pushLine h hreading hplain
  case isTrue hline =>
    rw [if_pos hline, denotesQuery] at hplain
    split
    case h_1 => exact ⟨h.typed, rfl, h.plain, h.unterminated, h.fresh⟩
    case h_2 => exact ⟨h.typed, rfl, h.plain, h.unterminated, h.fresh⟩
    case h_3 => exact ⟨h.typed, rfl, h.plain, h.unterminated, h.fresh⟩
    case h_4 hquery =>
      rw [hquery] at hplain
      cases hplain

/-- The two clients stay at the same point as long as what is entered is plain. -/
theorem follows_step {outcome : List String → Outcome} {s : Session} {t : Typing} {input : Input}
    (h : Follows s t) (hplain : s.EntersPlainly input) :
  Follows (s.runInteractive outcome input) (t.step outcome input)
  := by
  rw [Session.runInteractive.eq_def, Typing.step.eq_def, ← h.dialogue]
  split
  case isFalse => exact h
  case isTrue hreading =>
    cases input with
    | line text => exact follows_readLine h hreading (hplain hreading)
    | interrupted =>
        dsimp only
        split
        case isTrue hblank =>
          rw [isBlank, h.typed] at hblank
          have htyped : s.buffer = "" := by
            apply String.toList_inj.mp
            rw [h.typed]
            exact h.fresh hblank
          obtain ⟨buffer, dialogue⟩ := s
          obtain rfl : buffer = "" := htyped
          apply follows_nil
        case isFalse =>
          rw [h.dialogue]
          apply follows_nil
    | eof => exact ⟨h.typed, rfl, h.plain, h.unterminated, h.fresh⟩
    | error => exact ⟨h.typed, rfl, h.plain, h.unterminated, h.fresh⟩

theorem follows_run {outcome : List String → Outcome} {inputs : List Input} {s : Session}
    {t : Typing} (h : Follows s t)
    (hplain : Run.AllAllowed (Session.runInteractive outcome) Session.EntersPlainly inputs s) :
  Follows (Run.performAll (Session.runInteractive outcome) inputs s)
    (Run.performAll (Typing.step outcome) inputs t)
  := by
  induction inputs generalizing s t with
  | nil => exact h
  | cons input inputs ih => exact ih (follows_step h hplain.1) hplain.2

/-- As long as what is entered is plain, the client executes the queries that were denoted and the
statements that were typed, nothing else is left in its buffer than what was typed since, and it
knows whether the next line completes a statement. -/
theorem executes_typed (outcome : List String → Outcome) (options : ClientOptions)
    (inputs : List Input)
    (h : Run.AllAllowed (Session.runInteractive outcome) Session.EntersPlainly inputs
      (Session.start options)) :
  let s := Run.performAll (Session.runInteractive outcome) inputs (Session.start options)
  let t := Run.performAll (Typing.step outcome) inputs (Typing.start options)
  s.dialogue.executed = t.dialogue.executed ∧ s.buffer.toList = t.typed
    ∧ ∀ line, s.takesMetaCommand line = false → s.TakesPlainly line →
        sqlStatementIsComplete (s.buffer ++ line ++ "\n")
          = complete (s.buffer ++ line ++ "\n").toList
  := by
  intro s t
  have hfollows : Follows s t := follows_run (follows_nil ⟨options, [], .reading⟩) h
  refine ⟨congrArg Dialogue.executed hfollows.dialogue, hfollows.typed, ?_⟩
  intro line hline hplain
  rw [Session.TakesPlainly, hline, if_neg Bool.false_ne_true] at hplain
  apply sqlStatementIsComplete_eq
  rw [String.append_assoc, String.toList_append]
  apply (Run.allAllowed_append _ _ _).mpr
  constructor
  · rw [hfollows.typed]
    exact hfollows.plain
  · exact hplain

/-- Lines with strings, comments, a blank line and a meta command that denotes no query. -/
def sampleInputs : List Input :=
  [.line "\\timing on", .line "SELECT 'it''s;' -- a note", .line "", .line "  FROM \"a;\";",
    .line "SELECT", .interrupted, .line " SELECT /* two */ 2;  "]

theorem executes_typed_sample :
  (Run.performAll (Session.runInteractive fun _ => .answered) sampleInputs
      (Session.start (.fromInteractive false))).dialogue.executed
    = ["SELECT 'it''s;' -- a note\n\n  FROM \"a;\";", "SELECT /* two */ 2;"]
  := by
  have h := executes_typed (fun _ => .answered) (.fromInteractive false) sampleInputs
    (by decide +kernel)
  refine h.1.trans ?_
  decide +kernel

/-- A query that a meta command denotes is not executed; it stays in the buffer with the text of
the command, in front of the next statement.  A comment after a statement hides its end, and a
semicolon in a comment is taken for one. -/
theorem executes_untyped :
  (Run.performAll (Session.runInteractive fun _ => .answered)
      [.line "\\dn", .line "SELECT 1;"] (Session.start (.fromInteractive false))).dialogue.executed
    = ["SHOW SCHEMAS\n\\dn\nSELECT 1;"]
  ∧ (Run.performAll (Typing.step fun _ => .answered)
      [.line "\\dn", .line "SELECT 1;"] (Typing.start (.fromInteractive false))).dialogue.executed
    = ["SHOW SCHEMAS", "SELECT 1;"]
  ∧ sqlStatementIsComplete "SELECT 1; -- one\n" = false
  ∧ complete "SELECT 1; -- one\n".toList = true
  ∧ sqlStatementIsComplete "SELECT 1 -- one;\n" = true
  ∧ complete "SELECT 1 -- one;\n".toList = false
  := by decide +kernel

end Client
