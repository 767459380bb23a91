import AnalyticsDB.Lib.Run
import AnalyticsDB.Lib.Text

/-!
# Where the statements of SQL end

A text of SQL is read from left to right: strings, quoted identifiers, comments to the end of the
line and nested ones, and the code outside of them.  A statement ends with a semicolon of the code.
`cut` cuts a text after each of these semicolons, and a text is complete when nothing but white
space and comments follows the last one.

A quote that is doubled within a string ends the string and starts another one, so that doubled
quotes need no case of their own.
-/

namespace SqlStatements

/-- What the next character belongs to. -/
inductive Mode where
  | code
  /-- The code after a minus sign, which another one makes a comment. -/
  | dash
  /-- The code after a slash, which an asterisk makes a comment. -/
  | slash
  | string
  | identifier
  | lineComment
  | blockComment (depth : Nat)
  /-- A comment after an asterisk, which a slash ends. -/
  | blockStar (depth : Nat)
  /-- A comment after a slash, which an asterisk makes the start of another one. -/
  | blockSlash (depth : Nat)
  deriving DecidableEq, Repr

/-- Whether the mode is that of a comment. -/
def Mode.isComment : Mode → Bool
  | .lineComment | .blockComment _ | .blockStar _ | .blockSlash _ => true
  | _ => false

/-- Whether the mode is that of the code. -/
def Mode.isCode : Mode → Bool
  | .code | .dash | .slash => true
  | _ => false

/-- The mode, and whether the last character that is neither white space nor in a comment is a
semicolon of the code. -/
structure Reading where
  mode : Mode
  terminated : Bool
  deriving DecidableEq, Repr

/-- The reading of nothing. -/
def start : Reading := ⟨.code, false⟩

/-- The reading after one more character of the code.  A minus sign and a slash do not count before
it is known that they do not start a comment. -/
def readCode (terminated : Bool) (c : Char) : Reading :=
  if c = '\'' then ⟨.string, false⟩
  else if c = '"' then ⟨.identifier, false⟩
  else if c = '-' then ⟨.dash, terminated⟩
  else if c = '/' then ⟨.slash, terminated⟩
  else if isWhiteSpace c then ⟨.code, terminated⟩
  else ⟨.code, c = ';'⟩

/-- The mode after one more character of a nested comment. -/
def readBlock (depth : Nat) (c : Char) : Mode :=
  if c = '*' then .blockStar depth
  else if c = '/' then .blockSlash depth
  else .blockComment depth

/-- The mode after the end of a nested comment. -/
def leaveBlock : Nat → Mode
  | 0 => .code
  | depth + 1 => .blockComment depth

/-- The reading after one more character. -/
def next (r : Reading) (c : Char) : Reading :=
  match r.mode with
  | .code => readCode r.terminated c
  | .dash => if c = '-' then ⟨.lineComment, r.terminated⟩ else readCode false c
  | .slash => if c = '*' then ⟨.blockComment 0, r.terminated⟩ else readCode false c
  | .string => if c = '\'' then ⟨.code, false⟩ else r
  | .identifier => if c = '"' then ⟨.code, false⟩ else r
  | .lineComment => if c = '\n' then ⟨.code, r.terminated⟩ else r
  | .blockComment depth => ⟨readBlock depth c, r.terminated⟩
  | .blockStar depth => ⟨if c = '/' then leaveBlock depth else readBlock depth c, r.terminated⟩
  | .blockSlash depth =>
    ⟨if c = '*' then .blockComment (depth + 1) else readBlock depth c, r.terminated⟩

/-- The reading of a text. -/
def reading (text : List Char) : Reading := text.foldl next start

/-- Whether a character ends a statement. -/
def ends (r : Reading) (c : Char) : Bool := c = ';' && r.mode.isCode

/-- Whether a text ends with a semicolon of the code, apart from white space and comments. -/
def complete (text : List Char) : Bool :=
  (reading text).terminated
    && ((reading text).mode = .code || (reading text).mode = .lineComment)

/-- The statements of a text that comes after what was read of one, and what is left. -/
def cutFrom (r : Reading) (read : List Char) : List Char → List (List Char) × List Char
  | [] => ([], read)
  | c :: rest =>
    if ends r c then
      let (statements, left) := cutFrom start [] rest
      ((read ++ [c]) :: statements, left)
    else cutFrom (next r c) (read ++ [c]) rest

/-- The statements of a text, and what follows them. -/
def cut (text : List Char) : List (List Char) × List Char := cutFrom start [] text

example : (cut "SELECT ';'; -- it's;\nSELECT /* ; */ \";\"; x".toList).1.map String.ofList
    = ["SELECT ';';", " -- it's;\nSELECT /* ; */ \";\";"] := by decide

example : complete "SELECT 1; -- one".toList = true ∧ complete "SELECT 1 -- ;".toList = false
    ∧ complete "SELECT 1; /* /* */".toList = false := by decide

/-- A character is plain where it is read: in a comment, it is neither a quote nor a semicolon, and
after a semicolon of the code, it is white space. -/
def PlainChar (c : Char) (r : Reading) : Prop :=
  (r.mode.isComment = true → c ≠ '\'' ∧ c ≠ '"' ∧ c ≠ ';')
    ∧ (r.terminated = true → isWhiteSpace c = true)

instance (c : Char) (r : Reading) : Decidable (PlainChar c r) :=
  inferInstanceAs (Decidable (_ ∧ _))

/-- Every character of a text is plain where it is read. -/
abbrev Plain (text : List Char) (r : Reading) : Prop :=
  Run.AllAllowed (fun c r => next r c) PlainChar text r

theorem readCode_semicolon (terminated : Bool) :
  readCode terminated ';' = ⟨.code, true⟩
  := by
  cases terminated
  · rfl
  · rfl

/-- White space changes nothing in the code. -/
theorem readCode_whiteSpace {c : Char} (h : isWhiteSpace c = true) (terminated : Bool) :
  readCode terminated c = ⟨.code, terminated⟩
  := by
  have hne : ∀ d : Char, isWhiteSpace d = false → c ≠ d := by
    rintro d hd rfl
    rw [h] at hd
    cases hd
  rw [readCode, if_neg (hne '\'' rfl), if_neg (hne '"' rfl), if_neg (hne '-' rfl),
    if_neg (hne '/' rfl), if_pos h]

/-- The code is terminated by a semicolon only. -/
theorem terminated_readCode {c : Char} (h : c ≠ ';') :
  (readCode false c).terminated = false
  := by
  rw [readCode]
  split
  · rfl
  split
  · rfl
  split
  · rfl
  split
  · rfl
  split
  · rfl
  · simp [h]

theorem next_of_ends {r : Reading} {c : Char} (h : ends r c = true) :
  next r c = ⟨.code, true⟩
  := by
  rw [ends, Bool.and_eq_true, decide_eq_true_eq] at h
  obtain ⟨rfl, hcode⟩ := h
  rw [next]
  split
  case h_1 => apply readCode_semicolon
  case h_2 => rw [if_neg (by decide), readCode_semicolon]
  case h_3 => rw [if_neg (by decide), readCode_semicolon]
  all_goals
    rename_i hmode
    rw [hmode] at hcode
    cases hcode

/-- What is not terminated is terminated by the end of a statement only. -/
theorem terminated_next {r : Reading} {c : Char} (hr : r.terminated = false)
    (h : ends r c = false) :
  (next r c).terminated = false
  := by
  have hcode : r.mode.isCode = true → c ≠ ';' := by
    rintro hmode rfl
    rw [ends, hmode] at h
    cases h
  rw [next]
  split
  case h_1 hmode =>
    rw [hr]
    apply terminated_readCode
    apply hcode
    rw [hmode]
    rfl
  case h_2 hmode =>
    split
    · exact hr
    · apply terminated_readCode
      apply hcode
      rw [hmode]
      rfl
  case h_3 hmode =>
    split
    · exact hr
    · apply terminated_readCode
      apply hcode
      rw [hmode]
      rfl
  case h_4 =>
    split
    · rfl
    · exact hr
  case h_5 =>
    split
    · rfl
    · exact hr
  case h_6 =>
    split
    · exact hr
    · exact hr
  all_goals exact hr

/-- White space after a statement neither ends a statement nor changes the reading. -/
theorem cutFrom_whiteSpace {text : List Char} (h : ∀ c ∈ text, isWhiteSpace c = true)
    (terminated : Bool) (read : List Char) :
  cutFrom ⟨.code, terminated⟩ read text = ([], read ++ text)
    ∧ text.foldl next ⟨.code, terminated⟩ = ⟨.code, terminated⟩
  := by
  induction text generalizing read with
  | nil => exact ⟨by rw [cutFrom, List.append_nil], rfl⟩
  | cons c text ih =>
      have hc := h c List.mem_cons_self
      have hends : ends ⟨.code, terminated⟩ c = false := by
        cases hend : ends ⟨.code, terminated⟩ c with
        | false => rfl
        | true =>
            rw [ends, Bool.and_eq_true, decide_eq_true_eq] at hend
            rw [hend.1] at hc
            cases hc
      have hnext : next ⟨.code, terminated⟩ c = ⟨.code, terminated⟩ :=
        readCode_whiteSpace hc terminated
      obtain ⟨hcut, hread⟩ := ih (fun d hd => h d (List.mem_cons_of_mem c hd)) (read ++ [c])
      constructor
      · rw [cutFrom, hends, if_neg Bool.false_ne_true, hnext, hcut, List.append_assoc]
        rfl
      · rw [List.foldl_cons, hnext, hread]

/-- What is plain after a semicolon is white space. -/
theorem Plain.whiteSpace {text : List Char} (h : Plain text ⟨.code, true⟩) :
  ∀ c ∈ text, isWhiteSpace c = true
  := by
  induction text with
  | nil =>
      intro c hc
      cases hc
  | cons d text ih =>
      have hd := h.1.2 rfl
      intro c hc
      obtain rfl | hc := List.mem_cons.mp hc
      · exact hd
      · apply ih _ c hc
        have hrest : Plain text (next ⟨.code, true⟩ d) := h.2
        rw [show next ⟨.code, true⟩ d = ⟨.code, true⟩ from readCode_whiteSpace hd true] at hrest
        exact hrest

/-- A plain text ends no statement, or it ends one and has only white space after it. -/
theorem Plain.cutFrom {text : List Char} {r : Reading} (h : Plain text r)
    (hr : r.terminated = false) :
  ((∀ read, cutFrom r read text = ([], read ++ text))
      ∧ (text.foldl next r).terminated = false)
    ∨ ∃ statement space, text = statement ++ space ∧ (∀ c ∈ space, isWhiteSpace c = true)
      ∧ (∀ read, SqlStatements.cutFrom r read text = ([read ++ statement], space))
      ∧ text.foldl next r = ⟨.code, true⟩
  := by
  induction text generalizing r with
  | nil =>
      left
      refine ⟨fun read => ?_, hr⟩
      rw [SqlStatements.cutFrom, List.append_nil]
  | cons c text ih =>
      cases hend : ends r c with
      | true =>
          right
          have hrest : Plain text (next r c) := h.2
          rw [next_of_ends hend] at hrest
          have hspace := Plain.whiteSpace hrest
          refine ⟨[c], text, rfl, hspace, fun read => ?_, ?_⟩
          · rw [SqlStatements.cutFrom, hend, if_pos rfl, start, (cutFrom_whiteSpace hspace _ _).1]
            rfl
          · rw [List.foldl_cons, next_of_ends hend, (cutFrom_whiteSpace hspace true []).2]
      | false =>
          have hcut : ∀ read, SqlStatements.cutFrom r read (c :: text)
              = SqlStatements.cutFrom (next r c) (read ++ [c]) text := by
            intro read
            rw [SqlStatements.cutFrom, hend, if_neg Bool.false_ne_true]
          obtain ⟨hnone, hread⟩ | ⟨statement, space, rfl, hspace, hone, hread⟩ :=
            ih h.2 (terminated_next hr hend)
          · left
            refine ⟨fun read => ?_, hread⟩
            rw [hcut, hnone, List.append_assoc]
            rfl
          · right
            refine ⟨c :: statement, space, rfl, hspace, fun read => ?_, hread⟩
            rw [hcut, hone, List.append_assoc]
            rfl

/-- White space has no statement. -/
theorem cut_whiteSpace {text : List Char} (h : ∀ c ∈ text, isWhiteSpace c = true) :
  cut text = ([], text)
  := (cutFrom_whiteSpace h false []).1

/-- A plain text is not terminated and has no statement, or it is complete and has one. -/
theorem Plain.cut {text : List Char} (h : Plain text start) :
  (cut text = ([], text) ∧ (reading text).terminated = false)
    ∨ ∃ statement space, text = statement ++ space ∧ space.all isWhiteSpace = true
      ∧ SqlStatements.cut text = ([statement], space) ∧ complete text = true
  := by
  obtain ⟨hnone, hread⟩ | ⟨statement, space, htext, hspace, hone, hread⟩ := h.cutFrom rfl
  · exact .inl ⟨hnone [], hread⟩
  · refine .inr ⟨statement, space, htext, List.all_eq_true.mpr hspace, hone [], ?_⟩
    rw [complete, reading, hread]
    rfl

end SqlStatements
