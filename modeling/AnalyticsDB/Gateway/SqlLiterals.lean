import AnalyticsDB.Control.AccountTexts
import AnalyticsDB.Engine.Mutations
import AnalyticsDB.Gateway.Proxy
import AnalyticsDB.Lib.Quoting
import AnalyticsDB.Protocol.Parameters

/-!
# String literals

The gateway and the protocol write a text as a literal between quotes, the quotes in it doubled.
The parser of statements on accounts reads a literal character by character, and the values of an
INSERT are read by replacing all doubled quotes at once.  Both read what is written, whatever the
text, and the first reads nothing else.
-/

open Gateway Quoting

/-- The literal of a text, as a list of characters. -/
theorem toList_sqlLiteral (value : String) :
  (sqlLiteral value).toList = '\'' :: double '\'' value.toList ++ ['\'']
  := by
  rw [sqlLiteral, String.toList_ofList]
  rfl

theorem optionStringToSqlLiteral_some (value : String) :
  optionStringToSqlLiteral (some value) = sqlLiteral value
  := rfl

theorem isVerb_sqlLiteral (value : String) :
  isVerb (sqlLiteral value) = true
  := by
  rw [isVerb, toList_sqlLiteral, List.cons_append, List.getLast?_cons]
  simp
  decide

/-- The characters between the quotes are read as doubled quotes and other characters. -/
theorem unescapeQuotes_eq (chars : List Char) :
  unescapeQuotes chars = undouble '\'' chars
  := by
  induction chars using unescapeQuotes.induct with
  | case1 => rfl
  | case2 rest ih => rw [unescapeQuotes, undouble_pair, ih]
  | case3 rest hrest =>
      rw [unescapeQuotes]
      · cases rest with
        | nil => rfl
        | cons d rest =>
            have hd : d ≠ '\'' := fun hd => hrest rest (by rw [hd])
            simp [undouble, hd]
      · exact hrest
  | case4 c rest hpair hquote ih =>
      rw [unescapeQuotes, undouble_char hquote, ih]
      · exact hpair
      · exact hquote

/-- A text is read back from its literal. -/
theorem parse_sqlLiteral (value : String) :
  parseSqlSingleQuotedLiteral (sqlLiteral value) = some value
  := by
  rw [parseSqlSingleQuotedLiteral, trimWhiteSpace_eq_self (isVerb_sqlLiteral value),
    toList_sqlLiteral, List.cons_append]
  simp [unescapeQuotes_eq, undouble_double]

/-- What is read as a literal of a text is that literal. -/
theorem eq_sqlLiteral_of_parse {text value : String} (htrimmed : trimWhiteSpace text = text)
    (h : parseSqlSingleQuotedLiteral text = some value) :
  text = sqlLiteral value
  := by
  rw [parseSqlSingleQuotedLiteral, htrimmed] at h
  split at h
  · rename_i rest htext
    split at h
    · rename_i hlast
      rw [Option.map_eq_some_iff] at h
      obtain ⟨chars, hchars, rfl⟩ := h
      rw [unescapeQuotes_eq] at hchars
      obtain ⟨body, rfl⟩ := List.getLast?_eq_some_iff.mp hlast
      rw [List.dropLast_concat] at hchars
      apply String.toList_inj.mp
      rw [toList_sqlLiteral, htext, String.toList_ofList, eq_double_of_undouble hchars]
      rfl
    · cases h
  · cases h

/-- Replacing the doubled quotes of a text undoes the doubling. -/
theorem replaceFrom_double (chars : List Char) :
  replaceFrom ['\'', '\''] ['\''] 0 (double '\'' chars) = chars
  := by
  induction chars with
  | nil => rfl
  | cons c chars ih =>
      by_cases hc : c = '\''
      · rw [hc, double_quote, replaceFrom, if_pos (by simp)]
        simp [replaceFrom, ih]
      · rw [double_char hc, replaceFrom, if_neg, ih]
        rw [List.isPrefixOf_iff_prefix, List.cons_prefix_cons]
        rintro ⟨rfl, -⟩
        exact hc rfl

/-- A text is the value of an INSERT that its literal gives. -/
theorem normalizeInsertValue_sqlLiteral (value : String) :
  normalizeInsertValue (sqlLiteral value) = value
  := by
  have hchars := toList_sqlLiteral value
  rw [normalizeInsertValue, trimWhiteSpace_eq_self (isVerb_sqlLiteral value), if_pos]
  · have hpair : "''".toList = ['\'', '\''] := by decide
    have hquote : "'".toList = ['\''] := by decide
    rw [replaceAll, hpair, hquote, hchars, List.cons_append, List.drop_one, List.tail_cons,
      List.dropLast_concat, String.toList_ofList, replaceFrom_double, String.ofList_toList]
  · rw [hchars, List.cons_append, List.getLast?_cons]
    simp

/-- The literals that are written for a text are read back as the text, and the texts that are read
as a literal are the quotes around sequences of doubled quotes and other characters, each the
literal of the text it is read as. -/
theorem sqlLiterals_roundTrip :
  (∀ s, parseSqlSingleQuotedLiteral (sqlLiteral s) = some s)
    ∧ (∀ s, normalizeInsertValue (optionStringToSqlLiteral (some s)) = s)
    ∧ ∀ text, trimWhiteSpace text = text →
      ((parseSqlSingleQuotedLiteral text).isSome = true
        ↔ ∃ body, Doubled '\'' body ∧ text.toList = '\'' :: body ++ ['\''])
      ∧ ∀ s, parseSqlSingleQuotedLiteral text = some s → sqlLiteral s = text
  := by
  refine ⟨parse_sqlLiteral, ?_, ?_⟩
  · intro s
    rw [optionStringToSqlLiteral_some]
    exact normalizeInsertValue_sqlLiteral s
  · intro text htrimmed
    refine ⟨?_, fun s hs => (eq_sqlLiteral_of_parse htrimmed hs).symm⟩
    rw [Option.isSome_iff_exists]
    constructor
    · rintro ⟨s, hs⟩
      rw [eq_sqlLiteral_of_parse htrimmed hs]
      exact ⟨_, doubled_iff.mpr ⟨s.toList, rfl⟩, toList_sqlLiteral s⟩
    · rintro ⟨body, hbody, htext⟩
      obtain ⟨chars, rfl⟩ := doubled_iff.mp hbody
      use String.ofList chars
      have hliteral : text = sqlLiteral (String.ofList chars) := by
        apply String.toList_inj.mp
        rw [htext, toList_sqlLiteral, String.toList_ofList]
      rw [hliteral, parse_sqlLiteral]

theorem sqlLiterals_roundTrip_quote :
  sqlLiteral "it's" = "'it''s'"
  := by
  apply (sqlLiterals_roundTrip.2.2 "'it''s'" (by decide)).2
  decide
