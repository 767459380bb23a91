import AnalyticsDB.Lib.Nesting
import AnalyticsDB.Lib.Text

/-!
# Splitting fragments of SQL

The parser splits fragments of SQL at delimiters that stand outside of strings and parentheses, and
trims the parts; an empty part at the end is dropped.  It fails exactly when the strings and the
parentheses do not match, and else its parts are the trimmed fragments between the delimiters.
-/

open Nesting

/-- Split a fragment, from the rest of it on.  `part` is what was read since the last delimiter. -/
def splitFrom (input : String) (delimiter : Char) (depth : Nat) (inSingleQuote : Bool)
    (part : List Char) : List Char → Except String (List String)
  | [] =>
    if inSingleQuote || depth ≠ 0 then
      .error s!"Unbalanced SQL fragment '{input}'"
    else
      let tail := trimWhiteSpace (String.ofList part)
      .ok (if tail.isEmpty then [] else [tail])
  | character :: rest =>
    if character = '\'' then
      if inSingleQuote then
        match rest with
        | '\'' :: rest => splitFrom input delimiter depth true (part ++ ['\'', '\'']) rest
        | rest => splitFrom input delimiter depth false (part ++ [character]) rest
      else
        splitFrom input delimiter depth true (part ++ [character]) rest
    else if inSingleQuote then
      splitFrom input delimiter depth true (part ++ [character]) rest
    else if character = '(' then
      splitFrom input delimiter (depth + 1) false (part ++ [character]) rest
    else if character = ')' then
      if depth = 0 then
        .error s!"Unbalanced ')' in SQL fragment '{input}'"
      else
        splitFrom input delimiter (depth - 1) false (part ++ [character]) rest
    else if character = delimiter && depth = 0 then
      (splitFrom input delimiter depth false [] rest).map
        (trimWhiteSpace (String.ofList part) :: ·)
    else
      splitFrom input delimiter depth false (part ++ [character]) rest

def splitSqlTopLevel (input : String) (delimiter : Char) : Except String (List String) :=
  splitFrom input delimiter 0 false [] input.toList

example : splitSqlTopLevel " a, f(b, c), 'd,''e', " ','
    = .ok ["a", "f(b, c)", "'d,''e'"]
  := by decide +kernel

/-- The marks of SQL. -/
def sqlMarks : Marks Char where
  quote := '\''
  opening := '('
  closing := ')'
  quote_ne_opening := by decide
  quote_ne_closing := by decide
  opening_ne_closing := by decide

/-- A character that can delimit fragments: no quote, no parenthesis and no white space. -/
structure Delimits (delimiter : Char) : Prop where
  plain : sqlMarks.Plain delimiter
  visible : isWhiteSpace delimiter = false

/-- The parts of fragments: they are trimmed, and an empty one at the end is dropped. -/
def trimmedParts : List (List Char) → List String
  | [] => []
  | [fragment] =>
    if (trimWhiteSpace (String.ofList fragment)).isEmpty then []
    else [trimWhiteSpace (String.ofList fragment)]
  | fragment :: fragments => trimWhiteSpace (String.ofList fragment) :: trimmedParts fragments

/-- The parts of the fragments of the rest of a text, of whose first fragment `part` was read
already. -/
def resumedParts (part : List Char) (fragments : List (List Char)) : List String :=
  trimmedParts ((part ++ fragments.headD []) :: fragments.tail)

/-- A character that is read belongs to the first fragment. -/
theorem map_resumedParts_cut {delimiter c : Char} {s s' : State} {part rest : List Char}
    (hc : ¬ (c = delimiter ∧ s = top)) (hstep : step sqlMarks s c = some s') :
  (cut sqlMarks delimiter s (c :: rest)).map (resumedParts part)
    = (cut sqlMarks delimiter s' rest).map (resumedParts (part ++ [c]))
  := by
  rw [cut, if_neg hc, hstep, Option.bind_some, Option.map_map]
  apply Option.map_congr
  intro fragments hfragments
  cases fragments with
  | nil => exact absurd rfl (cut_ne_nil hfragments)
  | cons fragment fragments => simp [resumedParts, withHead]

theorem toOption_map {ε α β : Type} (f : α → β) (x : Except ε α) :
  (x.map f).toOption = x.toOption.map f
  := by
  cases x with
  | error e => rfl
  | ok a => rfl

/-- The splitter cuts and trims. -/
theorem splitFrom_eq (input : String) {delimiter : Char} (hdelimiter : Delimits delimiter)
    (depth : Nat) (inSingleQuote : Bool) (part rest : List Char) :
  (splitFrom input delimiter depth inSingleQuote part rest).toOption
    = (cut sqlMarks delimiter ⟨depth, inSingleQuote⟩ rest).map (resumedParts part)
  := by
  have hquote : '\'' ≠ delimiter := Ne.symm hdelimiter.plain.ne_quote
  have hopeningNe : '(' ≠ delimiter := Ne.symm hdelimiter.plain.ne_opening
  have hclosingNe : ')' ≠ delimiter := Ne.symm hdelimiter.plain.ne_closing
  have hstart : ∀ depth, step sqlMarks ⟨depth, false⟩ '\'' = some ⟨depth, true⟩ := fun _ => rfl
  have hend : ∀ depth, step sqlMarks ⟨depth, true⟩ '\'' = some ⟨depth, false⟩ := fun _ => rfl
  induction depth, inSingleQuote, part, rest using splitFrom.induct delimiter with
  | case1 depth inSingleQuote part hopen =>
      rw [splitFrom, if_pos hopen, cut, if_neg]
      · rfl
      · intro htop
        cases htop
        exact absurd hopen (by decide)
  | case2 depth inSingleQuote part hclosed =>
      simp only [Bool.or_eq_true, decide_eq_true_eq, not_or, Bool.not_eq_true, not_not] at hclosed
      obtain ⟨rfl, rfl⟩ := hclosed
      rw [splitFrom, if_neg (by decide), cut, if_pos (by rfl), Option.map_some, resumedParts,
        List.headD_cons, List.append_nil]
      rfl
  | case3 depth part rest ih =>
      -- the first of the two quotes ends the string, and the second starts it again
      rw [splitFrom, if_pos rfl, if_pos rfl, ih,
        map_resumedParts_cut (fun h => hquote h.1) (hend depth),
        map_resumedParts_cut (fun h => hquote h.1) (hstart depth), List.append_assoc]
      rfl
  | case4 depth part rest hrest ih =>
      rw [splitFrom, if_pos rfl, if_pos rfl,
        map_resumedParts_cut (fun h => hquote h.1) (hend depth)]
      · exact ih
      · exact hrest
  | case5 depth inSingleQuote part rest hopen ih =>
      rw [Bool.not_eq_true] at hopen
      subst hopen
      rw [map_resumedParts_cut (fun h => hquote h.1) (hstart depth), ← ih, splitFrom.eq_def]
      rfl
  | case6 depth part character rest hcharacter ih =>
      have hstep : step sqlMarks ⟨depth, true⟩ character = some ⟨depth, true⟩ := by
        simp [step, sqlMarks, hcharacter]
      rw [map_resumedParts_cut (by rintro ⟨-, ⟨⟩⟩) hstep, ← ih, splitFrom.eq_def]
      simp only [hcharacter, if_false, if_true]
  | case7 depth inSingleQuote part rest hopen _ ih =>
      rw [Bool.not_eq_true] at hopen
      subst hopen
      have hstep : step sqlMarks ⟨depth, false⟩ '(' = some ⟨depth + 1, false⟩ := rfl
      rw [map_resumedParts_cut (fun h => hopeningNe h.1) hstep, ← ih, splitFrom.eq_def]
      rfl
  | case8 inSingleQuote part rest hopen _ _ =>
      rw [Bool.not_eq_true] at hopen
      subst hopen
      rw [cut, if_neg (fun h => hclosingNe h.1), splitFrom.eq_def]
      rfl
  | case9 depth inSingleQuote part rest hopen hdepth _ _ ih =>
      rw [Bool.not_eq_true] at hopen
      subst hopen
      have hstep : step sqlMarks ⟨depth, false⟩ ')' = some ⟨depth - 1, false⟩ := by
        simp [step, sqlMarks, hdepth]
      rw [map_resumedParts_cut (fun h => hclosingNe h.1) hstep, ← ih, splitFrom.eq_def]
      simp only [Char.reduceEq, if_false, if_true, Bool.false_eq_true, hdepth]
  | case10 depth inSingleQuote part character rest hcharacter hopen hopening hclosing hcut ih =>
      rw [Bool.not_eq_true] at hopen
      subst hopen
      rw [splitFrom.eq_def]
      simp only [hcharacter, hopening, hclosing, hcut, if_false, if_true, Bool.false_eq_true]
      simp only [Bool.and_eq_true, decide_eq_true_eq] at hcut
      obtain ⟨rfl, rfl⟩ := hcut
      rw [cut, if_pos ⟨rfl, rfl⟩, Option.map_map, toOption_map, ih, Option.map_map]
      apply Option.map_congr
      intro fragments hfragments
      cases fragments with
      | nil => exact absurd rfl (cut_ne_nil hfragments)
      | cons fragment fragments => simp [resumedParts, trimmedParts]
  | case11 depth inSingleQuote part character rest hcharacter hopen hopening hclosing hcut ih =>
      rw [Bool.not_eq_true] at hopen
      subst hopen
      have hstep : step sqlMarks ⟨depth, false⟩ character = some ⟨depth, false⟩ := by
        simp [step, sqlMarks, hcharacter, hopening, hclosing]
      rw [map_resumedParts_cut _ hstep, ← ih, splitFrom.eq_def]
      · simp only [hcharacter, hopening, hclosing, hcut, if_false, Bool.false_eq_true]
      · intro h
        apply hcut
        cases h.2
        simp [h.1]

/-- What is split is what can be cut, and its parts are the trimmed fragments. -/
theorem splitSqlTopLevel_ok_iff {input : String} {delimiter : Char} (hdelimiter : Delimits delimiter)
    {parts : List String} :
  splitSqlTopLevel input delimiter = .ok parts
    ↔ ∃ fragments, cut sqlMarks delimiter top input.toList = some fragments
      ∧ parts = trimmedParts fragments
  := by
  have heq := splitFrom_eq input hdelimiter 0 false [] input.toList
  rw [← splitSqlTopLevel] at heq
  have hresumed : ∀ fragments, cut sqlMarks delimiter top input.toList = some fragments →
      resumedParts [] fragments = trimmedParts fragments := by
    intro fragments hfragments
    cases fragments with
    | nil => exact absurd rfl (cut_ne_nil hfragments)
    | cons fragment fragments => rfl
  constructor
  · intro h
    rw [h] at heq
    obtain ⟨fragments, hfragments, hparts⟩ := Option.map_eq_some_iff.mp heq.symm
    exact ⟨fragments, hfragments, by rw [← hparts, hresumed fragments hfragments]⟩
  · rintro ⟨fragments, hfragments, rfl⟩
    have hcut : cut sqlMarks delimiter ⟨0, false⟩ input.toList = some fragments := hfragments
    rw [hcut, Option.map_some, hresumed fragments hfragments] at heq
    cases hsplit : splitSqlTopLevel input delimiter with
    | error e =>
        rw [hsplit] at heq
        cases heq
    | ok parts =>
        rw [hsplit] at heq
        cases heq
        rfl

/-- What is not balanced is not split. -/
theorem splitSqlTopLevel_error_iff {input : String} {delimiter : Char}
    (hdelimiter : Delimits delimiter) :
  (∃ message, splitSqlTopLevel input delimiter = .error message)
    ↔ ¬ Balanced sqlMarks input.toList
  := by
  rw [Nesting.Balanced, ← cut_isSome_iff hdelimiter.plain]
  constructor
  · rintro ⟨message, hsplit⟩ hcut
    obtain ⟨fragments, hfragments⟩ := Option.isSome_iff_exists.mp hcut
    rw [(splitSqlTopLevel_ok_iff hdelimiter).mpr ⟨fragments, hfragments, rfl⟩] at hsplit
    cases hsplit
  · intro hcut
    cases hsplit : splitSqlTopLevel input delimiter with
    | error message => exact ⟨message, rfl⟩
    | ok parts =>
        obtain ⟨fragments, hfragments, -⟩ := (splitSqlTopLevel_ok_iff hdelimiter).mp hsplit
        rw [hfragments] at hcut
        exact absurd rfl hcut

/-! ### Trimmed parts -/

/-- A text is its trimmed part between white space. -/
theorem exists_append_trimWhiteSpace (text : String) :
  ∃ before after, text.toList = before ++ (trimWhiteSpace text).toList ++ after
    ∧ before.all isWhiteSpace = true
  := by
  have hstart := List.takeWhile_append_dropWhile (p := isWhiteSpace) (l := text.toList)
  have hrest := List.takeWhile_append_dropWhile (p := isWhiteSpace)
    (l := (text.toList.dropWhile isWhiteSpace).reverse)
  refine ⟨text.toList.takeWhile isWhiteSpace,
    ((text.toList.dropWhile isWhiteSpace).reverse.takeWhile isWhiteSpace).reverse, ?_, ?_⟩
  · rw [trimWhiteSpace, String.toList_ofList, List.append_assoc, ← List.reverse_append, hrest,
      List.reverse_reverse, hstart]
  · exact List.all_takeWhile

/-- White space does not change the state. -/
theorem scan_whiteSpace {text : List Char} (h : text.all isWhiteSpace = true) (s : State) :
  scan sqlMarks s text = some s
  := by
  induction text with
  | nil => rfl
  | cons c text ih =>
      rw [List.all_cons, Bool.and_eq_true] at h
      have hplain : sqlMarks.Plain c := by
        refine ⟨?_, ?_, ?_⟩ <;>
          · rintro rfl
            exact absurd h.1 (by decide)
      rw [scan, step_plain hplain, Option.bind_some, ih h.2]

/-- A trimmed text has no other top-level delimiters. -/
theorem not_hasTopLevel_trim {delimiter : Char} {text : String}
    (h : ¬ HasTopLevel sqlMarks delimiter top text.toList) :
  ¬ HasTopLevel sqlMarks delimiter top (trimWhiteSpace text).toList
  := by
  rintro ⟨before, after, htext, hscan⟩
  obtain ⟨start, rest, hsplit, hstart⟩ := exists_append_trimWhiteSpace text
  apply h
  refine ⟨start ++ before, after ++ rest, ?_, ?_⟩
  · rw [hsplit, htext]
    simp
  · rw [scan_append, scan_whiteSpace hstart, Option.bind_some, hscan]

theorem mem_trimmedParts {fragments : List (List Char)} {part : String}
    (h : part ∈ trimmedParts fragments) :
  ∃ fragment ∈ fragments, part = trimWhiteSpace (String.ofList fragment)
  := by
  induction fragments using trimmedParts.induct with
  | case1 => cases h
  | case2 fragment hempty =>
      rw [trimmedParts, if_pos hempty] at h
      cases h
  | case3 fragment hfragment =>
      rw [trimmedParts, if_neg hfragment, List.mem_singleton] at h
      exact ⟨fragment, List.mem_singleton_self _, h⟩
  | case4 fragment fragments hfragments ih =>
      rw [trimmedParts, List.mem_cons] at h
      · rcases h with rfl | h
        · exact ⟨fragment, List.mem_cons_self, rfl⟩
        · obtain ⟨other, hother, rfl⟩ := ih h
          exact ⟨other, List.mem_cons_of_mem _ hother, rfl⟩
      · exact hfragments

/-- The parts of trimmed fragments that are not empty are the fragments. -/
theorem trimmedParts_eq_self {parts : List String}
    (h : ∀ part ∈ parts, trimWhiteSpace part = part ∧ part ≠ "") :
  trimmedParts (parts.map String.toList) = parts
  := by
  induction parts with
  | nil => rfl
  | cons part parts ih =>
      obtain ⟨⟨htrimmed, hne⟩, hrest⟩ := List.forall_mem_cons.mp h
      cases parts with
      | nil =>
          rw [List.map_singleton, trimmedParts, String.ofList_toList, htrimmed, if_neg]
          simpa using hne
      | cons next parts =>
          rw [List.map_cons, List.map_cons, trimmedParts, String.ofList_toList, htrimmed]
          · rw [← List.map_cons, ih hrest]
          · simp

/-- Splitting fails exactly at a text that is not balanced: a closing parenthesis outside the strings
closes nothing, or a string or a parenthesis is not closed.  Else the parts are the trimmed fragments
between the top-level delimiters, an empty one at the end left out, and have no top-level delimiter
themselves.  Trimmed and balanced texts that are not empty and have no top-level delimiter are what
their join is split into. -/
theorem splitSqlTopLevel_exact (delimiter : Char) (hdelimiter : Delimits delimiter) :
  (∀ input, (∃ message, splitSqlTopLevel input delimiter = .error message)
      ↔ ClosesNothing sqlMarks top input.toList ∨ endsQuoted sqlMarks false input.toList = true
        ∨ openings sqlMarks false input.toList ≠ closings sqlMarks false input.toList)
    ∧ (∀ input parts, splitSqlTopLevel input delimiter = .ok parts →
      (∃ fragments, fragments ≠ [] ∧ input.toList = [delimiter].intercalate fragments
        ∧ (∀ fragment ∈ fragments, Balanced sqlMarks fragment
          ∧ ¬ HasTopLevel sqlMarks delimiter top fragment)
        ∧ parts = trimmedParts fragments)
      ∧ ∀ part ∈ parts, ¬ HasTopLevel sqlMarks delimiter top part.toList)
    ∧ ∀ parts : List String, (∀ part ∈ parts, trimWhiteSpace part = part ∧ part ≠ ""
        ∧ Balanced sqlMarks part.toList ∧ ¬ HasTopLevel sqlMarks delimiter top part.toList) →
      splitSqlTopLevel (String.ofList ([delimiter].intercalate (parts.map String.toList))) delimiter
        = .ok parts
  := by
  refine ⟨?_, ?_, ?_⟩
  · intro input
    rw [splitSqlTopLevel_error_iff hdelimiter, not_balanced_iff]
  · intro input parts h
    obtain ⟨fragments, hfragments, rfl⟩ := (splitSqlTopLevel_ok_iff hdelimiter).mp h
    obtain ⟨hne, hinput, hexact⟩ := cut_eq_some_iff.mp hfragments
    refine ⟨⟨fragments, hne, hinput, hexact, rfl⟩, ?_⟩
    intro part hpart
    obtain ⟨fragment, hfragment, rfl⟩ := mem_trimmedParts hpart
    apply not_hasTopLevel_trim
    rw [String.toList_ofList]
    exact (hexact fragment hfragment).2
  · intro parts hparts
    rw [splitSqlTopLevel_ok_iff hdelimiter, String.toList_ofList]
    cases parts with
    | nil => exact ⟨[[]], rfl, rfl⟩
    | cons part parts =>
        refine ⟨(part :: parts).map String.toList, cut_intercalate (by simp) ?_, ?_⟩
        · rw [List.forall_mem_map]
          exact fun other hother => (hparts other hother).2.2
        · exact (trimmedParts_eq_self
            (fun other hother => ⟨(hparts other hother).1, (hparts other hother).2.1⟩)).symm

theorem splitSqlTopLevel_exact_comma :
  splitSqlTopLevel "a,f(b, c),'d,''e'" ',' = .ok ["a", "f(b, c)", "'d,''e'"]
  := by
  have hcomma : Delimits ',' := ⟨⟨by decide, by decide, by decide⟩, by decide⟩
  apply (splitSqlTopLevel_exact ',' hcomma).2.2 ["a", "f(b, c)", "'d,''e'"]
  decide +kernel

/-- White space is trimmed at the ends of a text without a delimiter, too. -/
theorem splitSqlTopLevel_trims :
  splitSqlTopLevel " a" ',' = .ok ["a"] ∧ ',' ∉ " a".toList ∧ ",".intercalate ["a"] ≠ " a"
    ∧ ",".intercalate ["a", ""] ≠ " a"
  := by
  decide +kernel
