import AnalyticsDB.Protocol.SessionStatements

/-!
# The text of an assignment

SET, a scope, the name of a setting, TO or an equals sign, and a value: such a text is read as it is
written, unless the value of an assignment with an equals sign has a TO between blanks.
-/

namespace Postgres

/-- What stands between SET and the name. -/
inductive Scope where
  | none
  | session
  | local
  deriving DecidableEq, Repr

def Scope.text : Scope → String
  | .none => ""
  | .session => "SESSION "
  | .local => "LOCAL "

/-- What stands between the name and the value, with a number of blanks on each side. -/
inductive Assignment where
  | word (before after : ℕ)
  | equals (before after : ℕ)
  deriving DecidableEq, Repr

def blanks (n : ℕ) : List Char := List.replicate n ' '

def Assignment.text : Assignment → List Char
  | .word before after => blanks before ++ " TO ".toList ++ blanks after
  | .equals before after => blanks before ++ ['='] ++ blanks after

/-- The text of a SET statement. -/
def setText (scope : Scope) (name : String) (assignment : Assignment) (value : String) : String :=
  "SET " ++ scope.text ++ name ++ String.ofList assignment.text ++ value

/-- A text that neither starts nor ends with white space and does not end with a semicolon. -/
structure Bare (text : String) : Prop where
  nonempty : text.toList ≠ []
  head : ∀ c, text.toList.head? = some c → isWhiteSpace c = false
  last : ∀ c, text.toList.getLast? = some c → isWhiteSpace c = false ∧ c ≠ ';'

/-- The assignment is cut where it is written. -/
def Assignment.Splits (value : String) : Assignment → Prop
  | .word _ _ => True
  | .equals _ after => splitAtUpper " TO ".toList (blanks after ++ value.toList) = .none

instance (value : String) : (assignment : Assignment) → Decidable (assignment.Splits value)
  | .word _ _ => .isTrue trivial
  | .equals _ after =>
    inferInstanceAs (Decidable (splitAtUpper " TO ".toList (blanks after ++ value.toList) = .none))

theorem Bare.trimWhiteSpace {text : String} (h : Bare text) :
  trimWhiteSpace text = text
  := trimWhiteSpace_of_ends h.head (fun c hc => (h.last c hc).1)

theorem Bare.trimStatement {text : String} (h : Bare text) :
  trimStatement text = text
  := by
  have hdrop : text.toList.reverse.dropWhile (· = ';') = text.toList.reverse := by
    cases hlist : text.toList.reverse with
    | nil => rfl
    | cons c rest =>
        apply List.dropWhile_cons_of_neg
        have hlast := h.last c (by rw [List.getLast?_eq_head?_reverse, hlist]; rfl)
        simp [hlast.2]
  rw [Postgres.trimStatement, h.trimWhiteSpace, hdrop, List.reverse_reverse, String.ofList_toList,
    h.trimWhiteSpace]

/-- A text stays bare when another one that starts without white space is put before it. -/
theorem Bare.append {start text : String} (h : Bare text) {c : Char}
    (hstart : start.toList.head? = some c) (hc : isWhiteSpace c = false) :
  Bare (start ++ text)
  := by
  constructor
  · simp [h.nonempty]
  · intro d hd
    rw [String.toList_append, List.head?_append, hstart] at hd
    cases hd
    exact hc
  · intro d hd
    rw [String.toList_append, List.getLast?_append_of_ne_nil _ h.nonempty] at hd
    exact h.last d hd

/-- White space before a text does not count for its trimmed form. -/
theorem trimWhiteSpace_prepend {space text : List Char} (h : space.all isWhiteSpace = true) :
  trimWhiteSpace (String.ofList (space ++ text)) = trimWhiteSpace (String.ofList text)
  := by
  rw [List.all_eq_true] at h
  rw [trimWhiteSpace, trimWhiteSpace, String.toList_ofList, String.toList_ofList,
    List.dropWhile_append_of_pos h]

theorem all_blanks (n : ℕ) :
  (blanks n).all isWhiteSpace = true
  := by
  rw [blanks, List.all_replicate]
  simp [show isWhiteSpace ' ' = true from rfl]

theorem startsWith_eq (text start : String) :
  startsWith text start = start.toList.isPrefixOf text.toList
  := rfl

theorem toList_asciiUpper (text : String) :
  (asciiUpper text).toList = text.toList.map Char.toUpper
  := String.toList_ofList

theorem dropStart_append (start text : String) :
  dropStart (start ++ text) start = text
  := by
  rw [dropStart, String.toList_append, ← String.length_toList, List.drop_left,
    String.ofList_toList]

/-- The separator is not found where the text does not go on with it. -/
theorem splitAtUpper_cons {separator rest : List Char} {c : Char}
    (h : separator.isPrefixOf ((c :: rest).map Char.toUpper) = false) :
  splitAtUpper separator (c :: rest)
    = (splitAtUpper separator rest).map (fun (before, after) => (c :: before, after))
  := by
  rw [splitAtUpper, h, if_neg Bool.false_ne_true]

/-- Characters that do not start the separator come before it. -/
theorem splitAtUpper_append {d : Char} {separator tail text rest : List Char}
    (hseparator : separator = d :: tail) (h : ∀ c ∈ text, c.toUpper ≠ d) :
  splitAtUpper separator (text ++ rest)
    = (splitAtUpper separator rest).map (fun (before, after) => (text ++ before, after))
  := by
  subst hseparator
  induction text with
  | nil =>
      rw [List.nil_append]
      cases splitAtUpper (d :: tail) rest with
      | none => rfl
      | some parts => rfl
  | cons c text ih =>
      rw [List.forall_mem_cons] at h
      rw [List.cons_append, splitAtUpper_cons, ih h.2, Option.map_map]
      · rfl
      · rw [List.map_cons, List.isPrefixOf, Bool.and_eq_false_iff]
        left
        exact beq_false_of_ne (Ne.symm h.1)

/-- Blanks come before a TO between blanks, and before what is no blank. -/
theorem splitAtUpper_blanks {rest : List Char} (n : ℕ)
    (h : ∀ c, rest.head? = some c → c.toUpper ≠ 'T') :
  splitAtUpper " TO ".toList (blanks n ++ rest)
    = (splitAtUpper " TO ".toList rest).map (fun (before, after) => (blanks n ++ before, after))
  := by
  induction n with
  | zero =>
      rw [blanks, List.replicate_zero, List.nil_append]
      cases splitAtUpper " TO ".toList rest with
      | none => rfl
      | some parts => rfl
  | succ n ih =>
      have hblanks : blanks (n + 1) = ' ' :: blanks n := List.replicate_succ
      rw [hblanks, List.cons_append, splitAtUpper_cons, ih, Option.map_map]
      · rfl
      · have hnext : ∀ c, (blanks n ++ rest).head? = some c → c.toUpper ≠ 'T' := by
          intro c hc
          cases n with
          | zero => exact h c hc
          | succ n =>
              rw [blanks, List.replicate_succ] at hc
              cases hc
              decide
        cases hrest : blanks n ++ rest with
        | nil => rfl
        | cons c more =>
            rw [hrest] at hnext
            have hc := hnext c rfl
            simp [List.isPrefixOf, Ne.symm hc]

/-- A separator with a character that is not in the text is not found. -/
theorem splitAtUpper_eq_none {separator text : List Char} {d : Char} (hd : d ∈ separator)
    (h : ∀ c ∈ text, c.toUpper ≠ d) :
  splitAtUpper separator text = none
  := by
  induction text with
  | nil => rfl
  | cons c text ih =>
      rw [splitAtUpper_cons, ih (fun e he => h e (List.mem_cons_of_mem c he))]
      · rfl
      · by_contra hfound
        rw [Bool.not_eq_false, List.isPrefixOf_iff_prefix] at hfound
        obtain ⟨e, he, heq⟩ := List.mem_map.mp (hfound.subset hd)
        exact h e he heq

/-- The value of an assignment and what is before it. -/
theorem splitPostgresSetAssignment_text {name value : String} {assignment : Assignment}
    (hname : ∀ c ∈ name.toList, c.toUpper ≠ ' ' ∧ c.toUpper ≠ '=') (hbare : Bare name)
    (hvalue : Bare value) (hsplits : assignment.Splits value) :
  splitPostgresSetAssignment (name ++ String.ofList assignment.text ++ value) = some (name, value)
  := by
  have hleft : ∀ n, trimWhiteSpace (String.ofList (name.toList ++ blanks n)) = name := by
    intro n
    rw [trimWhiteSpace_append (all_blanks n), String.ofList_toList, hbare.trimWhiteSpace]
  have hright : ∀ n, trimWhiteSpace (String.ofList (blanks n ++ value.toList)) = value := by
    intro n
    rw [trimWhiteSpace_prepend (all_blanks n), String.ofList_toList, hvalue.trimWhiteSpace]
  have hspace : ∀ c ∈ name.toList, c.toUpper ≠ ' ' := fun c hc => (hname c hc).1
  have hword : " TO ".toList = ' ' :: ['T', 'O', ' '] := rfl
  rw [splitPostgresSetAssignment, String.toList_append, String.toList_append,
    String.toList_ofList (l := assignment.text), List.append_assoc]
  cases assignment with
  | word before after =>
      have hto : splitAtUpper " TO ".toList (" TO ".toList ++ (blanks after ++ value.toList))
          = some ([], blanks after ++ value.toList) := rfl
      have hfound : splitAtUpper " TO ".toList
          (name.toList ++ ((Assignment.word before after).text ++ value.toList))
          = some (name.toList ++ (blanks before ++ []), blanks after ++ value.toList) := by
        rw [Assignment.text, List.append_assoc, List.append_assoc,
          splitAtUpper_append hword hspace, splitAtUpper_blanks before (by rintro c ⟨⟩; decide),
          hto]
        rfl
      rw [hfound, List.append_nil]
      simp only [Option.orElse, Option.map_some, hleft, hright]
  | equals before after =>
      have hnone : splitAtUpper " TO ".toList
          (name.toList ++ ((Assignment.equals before after).text ++ value.toList)) = none := by
        have hequals : splitAtUpper " TO ".toList (['='] ++ (blanks after ++ value.toList))
            = none := by
          rw [List.singleton_append, splitAtUpper_cons (by rfl), hsplits]
          rfl
        rw [Assignment.text, List.append_assoc, List.append_assoc,
          splitAtUpper_append hword hspace, splitAtUpper_blanks before (by rintro c ⟨⟩; decide),
          hequals]
        rfl
      have hfound : splitAtUpper ['=']
          (name.toList ++ ((Assignment.equals before after).text ++ value.toList))
          = some (name.toList ++ blanks before, blanks after ++ value.toList) := by
        have hblanks : ∀ c ∈ name.toList ++ blanks before, c.toUpper ≠ '=' := by
          intro c hc
          obtain hc | hc := List.mem_append.mp hc
          · exact (hname c hc).2
          · rw [(List.mem_replicate.mp hc).2]
            decide
        have hequals : splitAtUpper ['='] (['='] ++ (blanks after ++ value.toList))
            = some ([], blanks after ++ value.toList) := rfl
        rw [Assignment.text, List.append_assoc, List.append_assoc, ← List.append_assoc,
          splitAtUpper_append rfl hblanks, hequals]
        simp
      rw [hnone, hfound]
      simp only [Option.orElse, Option.map_some, hleft, hright]

/-- The settings whose assignments are read here. -/
def IsSetting (name : String) : Prop := name = "search_path" ∨ name = "statement_timeout"

theorem IsSetting.bare {name : String} (h : IsSetting name) :
  Bare name
  := by
  obtain rfl | rfl := h
  · constructor
    · decide
    · rintro c ⟨⟩
      decide
    · rintro c ⟨⟩
      decide
  · constructor
    · decide
    · rintro c ⟨⟩
      decide
    · rintro c ⟨⟩
      decide

/-- The words that have a meaning of their own after SET. -/
def setWords : List String :=
  ["SESSION ", "LOCAL ", "CHARACTERISTICS AS TRANSACTION ISOLATION LEVEL ", "TRANSACTION", "ROLE",
    "SESSION AUTHORIZATION", "CONSTRAINTS", "TIME ZONE ", "NAMES "]

theorem isPrefixOf_append_of_ne {start text rest : List Char}
    (h : ∃ n, n < start.length ∧ n < text.length ∧ start[n]? ≠ text[n]?) :
  start.isPrefixOf (text ++ rest) = false
  := by
  obtain ⟨n, hstart, htext, hne⟩ := h
  by_contra hfound
  rw [Bool.not_eq_false, List.isPrefixOf_iff_prefix] at hfound
  obtain ⟨more, hmore⟩ := hfound
  apply hne
  rw [← List.getElem?_append_left hstart, hmore, List.getElem?_append_left htext]

/-- The name of a setting has none of these words at its start. -/
theorem startsWith_setWord {name : String} (hname : IsSetting name) {word : String}
    (hword : word ∈ setWords) (rest : String) :
  startsWith (asciiUpper (name ++ rest)) word = false
  := by
  rw [startsWith_eq, toList_asciiUpper, String.toList_append, List.map_append]
  apply isPrefixOf_append_of_ne
  have hall : ∀ name ∈ ["search_path", "statement_timeout"], ∀ word ∈ setWords,
      ∃ n ∈ List.range 3, n < word.toList.length ∧ n < (name.toList.map Char.toUpper).length
        ∧ word.toList[n]? ≠ (name.toList.map Char.toUpper)[n]? := by decide
  obtain ⟨n, -, hn⟩ := hall name (by obtain rfl | rfl := hname <;> simp) word hword
  exact ⟨n, hn⟩

theorem stripSetScope_text {name : String} (hname : IsSetting name) (scope : Scope) {rest : String}
    (hrest : Bare (name ++ rest)) :
  stripSetScope (scope.text ++ (name ++ rest)) = name ++ rest
  := by
  rw [stripSetScope]
  cases scope with
  | none =>
      rw [Scope.text, String.empty_append, startsWith_setWord hname (by simp [setWords]),
        startsWith_setWord hname (by simp [setWords]), if_neg Bool.false_ne_true,
        if_neg Bool.false_ne_true]
  | session =>
      have hsession : startsWith (asciiUpper ("SESSION " ++ (name ++ rest))) "SESSION " = true := by
        rw [startsWith_eq, toList_asciiUpper, String.toList_append, List.map_append]
        exact List.isPrefixOf_iff_prefix.mpr (List.prefix_append _ _)
      rw [Scope.text, hsession, if_pos rfl, dropStart_append, hrest.trimWhiteSpace]
  | «local» =>
      have hsession : startsWith (asciiUpper ("LOCAL " ++ (name ++ rest))) "SESSION " = false := by
        rw [startsWith_eq, toList_asciiUpper, String.toList_append, List.map_append]
        exact isPrefixOf_append_of_ne ⟨0, by decide, by decide, by decide⟩
      have hlocal : startsWith (asciiUpper ("LOCAL " ++ (name ++ rest))) "LOCAL " = true := by
        rw [startsWith_eq, toList_asciiUpper, String.toList_append, List.map_append]
        exact List.isPrefixOf_iff_prefix.mpr (List.prefix_append _ _)
      rw [Scope.text, hsession, hlocal, if_neg Bool.false_ne_true, if_pos rfl, dropStart_append,
        hrest.trimWhiteSpace]

/-- The statement made of the parts of an assignment. -/
def assignmentStatement : Option (String × String) → Except String PostgresSetStatement
  | none => .error "unsupported PostgreSQL SET syntax in the current prototype"
  | some (nameRaw, valueRaw) => do
    let name ← normalizePostgresSettingName nameRaw
    return .set name (normalizePostgresSettingValue valueRaw)

/-- A SET statement for one of the settings is read as the assignment in it. -/
theorem parsePostgresSetStatement_eq {scope : Scope} {name value : String}
    {assignment : Assignment} (hname : IsSetting name) (hvalue : Bare value) :
  parsePostgresSetStatement (setText scope name assignment value)
    = assignmentStatement
      (splitPostgresSetAssignment (name ++ String.ofList assignment.text ++ value))
  := by
  have hhead : ∀ rest, (name ++ rest).toList.head? = some 's' := by
    intro rest
    rw [String.toList_append, List.head?_append]
    obtain rfl | rfl := hname
    · rfl
    · rfl
  have hbare : Bare (name ++ (String.ofList assignment.text ++ value)) := by
    rw [← String.append_assoc]
    exact hvalue.append (hhead _) rfl
  have hscope : Bare (scope.text ++ (name ++ (String.ofList assignment.text ++ value))) := by
    cases scope with
    | none =>
        rw [Scope.text, String.empty_append]
        exact hbare
    | session => exact hbare.append rfl rfl
    | «local» => exact hbare.append rfl rfl
  have htext : setText scope name assignment value
      = "SET " ++ (scope.text ++ (name ++ (String.ofList assignment.text ++ value))) := by
    simp only [setText, String.append_assoc]
  have hwhole : Bare (setText scope name assignment value) := by
    rw [htext]
    exact hscope.append rfl rfl
  have hset : ∀ word : String, startsWith (asciiUpper (setText scope name assignment value)) word
      = word.toList.isPrefixOf ('S' :: 'E' :: 'T' :: ' ' :: (asciiUpper (scope.text ++ (name
        ++ (String.ofList assignment.text ++ value)))).toList) := by
    intro word
    rw [htext, startsWith_eq, toList_asciiUpper, String.toList_append, List.map_append,
      toList_asciiUpper]
    rfl
  have hresetAll : asciiUpper (setText scope name assignment value) ≠ "RESET ALL" := by
    intro h
    have hstart : startsWith (asciiUpper (setText scope name assignment value)) "RESET ALL"
        = false := hset "RESET ALL"
    rw [h] at hstart
    exact absurd hstart (by decide)
  have hword : ∀ word ∈ setWords, startsWith (asciiUpper (name
      ++ (String.ofList assignment.text ++ value))) word = false :=
    fun word hword => startsWith_setWord hname hword _
  rw [parsePostgresSetStatement]
  dsimp only
  rw [hwhole.trimStatement, if_neg hresetAll, hset "RESET ", hset "SET ", htext, dropStart_append,
    hscope.trimWhiteSpace, stripSetScope_text hname scope hbare]
  rw [hword _ (by simp [setWords]), hword _ (by simp [setWords]), hword _ (by simp [setWords]),
    hword _ (by simp [setWords]), hword _ (by simp [setWords]), hword _ (by simp [setWords]),
    hword _ (by simp [setWords]), String.append_assoc]
  rfl

/-- The name of a setting has neither a blank nor an equals sign. -/
theorem IsSetting.chars {name : String} (h : IsSetting name) :
  ∀ c ∈ name.toList, c.toUpper ≠ ' ' ∧ c.toUpper ≠ '='
  := by
  obtain rfl | rfl := h
  · exact forall_mem_of_all (by decide)
  · exact forall_mem_of_all (by decide)

/-- A SET statement whose assignment is cut where it is written is read as it is written. -/
theorem parsePostgresSetStatement_setText {scope : Scope} {name value : String}
    {assignment : Assignment} (hname : IsSetting name) (hvalue : Bare value)
    (hsplits : assignment.Splits value) :
  parsePostgresSetStatement (setText scope name assignment value)
    = .ok (.set name (normalizePostgresSettingValue value))
  := by
  have hplain : normalizePostgresSettingName name = .ok name := by
    obtain rfl | rfl := hname
    · decide
    · decide
  rw [parsePostgresSetStatement_eq hname hvalue,
    splitPostgresSetAssignment_text hname.chars hname.bare hvalue hsplits, assignmentStatement,
    hplain]
  rfl

/-- A character that is no white space stays when a text is trimmed. -/
theorem mem_trimWhiteSpace {text : String} {c : Char} (hc : isWhiteSpace c = false)
    (h : c ∈ text.toList) :
  c ∈ (trimWhiteSpace text).toList
  := by
  have hdrop : ∀ chars : List Char, c ∈ chars → c ∈ chars.dropWhile isWhiteSpace := by
    intro chars hmem
    rw [← List.takeWhile_append_dropWhile (p := isWhiteSpace) (l := chars)] at hmem
    obtain hmem | hmem := List.mem_append.mp hmem
    · rw [List.mem_takeWhile_imp hmem] at hc
      cases hc
    · exact hmem
  rw [trimWhiteSpace, String.toList_ofList, List.mem_reverse]
  exact hdrop _ (List.mem_reverse.mpr (hdrop _ h))

/-- A name with an equals sign is refused. -/
theorem normalizePostgresSettingName_error {raw : String} (h : '=' ∈ raw.toList) :
  ∃ message, normalizePostgresSettingName raw = .error message
  := by
  have htrimmed := mem_trimWhiteSpace (by rfl) h
  have hnonempty : (trimWhiteSpace raw).isEmpty = false := by
    rw [Bool.eq_false_iff, Ne, String.isEmpty_iff, ← String.toList_eq_nil_iff]
    exact List.ne_nil_of_mem htrimmed
  have hchars : (trimWhiteSpace raw).toList.all
      (fun ch => ch.isAlphanum || ch = '_' || ch = '.') = false := by
    rw [List.all_eq_false]
    exact ⟨'=', htrimmed, by decide⟩
  use s!"unsupported PostgreSQL parameter name '{raw}' in the current prototype"
  rw [normalizePostgresSettingName, hnonempty, hchars, if_neg Bool.false_ne_true, Bool.not_false,
    if_pos rfl]

/-- A SET statement whose value has a TO between blanks after an equals sign is refused. -/
theorem parsePostgresSetStatement_not_splits {scope : Scope} {name value : String}
    {assignment : Assignment} (hname : IsSetting name) (hvalue : Bare value)
    (hsplits : ¬ assignment.Splits value) :
  ∃ message, parsePostgresSetStatement (setText scope name assignment value) = .error message
  := by
  rw [parsePostgresSetStatement_eq hname hvalue]
  cases assignment with
  | word before after => exact absurd trivial hsplits
  | equals before after =>
      obtain ⟨⟨left, right⟩, hfound⟩ := Option.ne_none_iff_exists'.mp hsplits
      have hspace : ∀ c ∈ name.toList, c.toUpper ≠ ' ' := fun c hc => (hname.chars c hc).1
      have hword : " TO ".toList = ' ' :: ['T', 'O', ' '] := rfl
      have hsplit : splitAtUpper " TO ".toList
          (name.toList ++ ((Assignment.equals before after).text ++ value.toList))
          = some (name.toList ++ (blanks before ++ '=' :: left), right) := by
        have hequals : splitAtUpper " TO ".toList (['='] ++ (blanks after ++ value.toList))
            = some ('=' :: left, right) := by
          rw [List.singleton_append, splitAtUpper_cons (by rfl), hfound]
          rfl
        rw [Assignment.text, List.append_assoc, List.append_assoc,
          splitAtUpper_append hword hspace, splitAtUpper_blanks before (by rintro c ⟨⟩; decide),
          hequals]
        rfl
      have hleft : '=' ∈ (trimWhiteSpace (String.ofList
          (name.toList ++ (blanks before ++ '=' :: left)))).toList := by
        apply mem_trimWhiteSpace (by rfl)
        rw [String.toList_ofList]
        simp
      obtain ⟨message, hmessage⟩ := normalizePostgresSettingName_error hleft
      refine ⟨message, ?_⟩
      rw [splitPostgresSetAssignment, String.toList_append, String.toList_append,
        String.toList_ofList (l := (Assignment.equals before after).text), List.append_assoc,
        hsplit]
      simp only [Option.orElse, Option.map_some, assignmentStatement, hmessage]
      rfl

end Postgres
