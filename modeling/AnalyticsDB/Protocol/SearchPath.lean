import AnalyticsDB.Client.Failover
import AnalyticsDB.Lib.Elementwise
import AnalyticsDB.Lib.Quoting
import AnalyticsDB.Protocol.SettingTexts

/-!
# The search path between quotes

The client puts the name of a schema between quotes and doubles the quotes in it.  The protocol cuts
a search path at its commas outside quotes and takes the quotes off again.  Every name comes back.
-/

namespace Postgres

open Client (quoteIdent)

open Quoting

theorem toList_quoteIdent (name : String) :
  (quoteIdent name).toList = '"' :: (double '"' name.toList ++ ['"'])
  := by
  simp only [quoteIdent, String.toList_append, String.toList_ofList]
  rfl

theorem bare_quoteIdent (name : String) :
  Bare (quoteIdent name)
  := by
  constructor
  · rw [toList_quoteIdent]
    simp
  · rw [toList_quoteIdent]
    rintro c ⟨⟩
    decide
  · intro c hc
    rw [toList_quoteIdent, ← List.cons_append, List.getLast?_concat] at hc
    cases hc
    decide

theorem undoubleQuotes_char {c : Char} (hc : c ≠ '"') (chars : List Char) :
  undoubleQuotes (c :: chars) = c :: undoubleQuotes chars
  := by
  rw [undoubleQuotes.eq_def]
  split
  case h_1 heq =>
    cases heq
    exact absurd rfl hc
  case h_2 heq =>
    cases heq
    rfl
  case h_3 heq => cases heq

theorem undoubleQuotes_double (chars : List Char) :
  undoubleQuotes (double '"' chars) = chars
  := by
  induction chars with
  | nil => rfl
  | cons c chars ih =>
      by_cases hc : c = '"'
      · rw [hc, double_quote, undoubleQuotes, ih]
      · rw [double_char hc, undoubleQuotes_char hc, ih]

/-- The name of a schema between quotes is read as the name. -/
theorem parseSearchPathSchemaName_quoteIdent (name : String) :
  parseSearchPathSchemaName (quoteIdent name) = .ok name
  := by
  have hinner : (quoteIdent name).toList.tail.dropLast = double '"' name.toList := by
    rw [toList_quoteIdent, List.tail_cons, List.dropLast_concat]
  have hempty : (quoteIdent name).isEmpty = false := by
    rw [Bool.eq_false_iff, Ne, String.isEmpty_iff, ← String.toList_eq_nil_iff, toList_quoteIdent]
    simp
  have hstart : startsWith (quoteIdent name) "\"" = true := by
    rw [startsWith_eq, toList_quoteIdent]
    rfl
  have hend : ((quoteIdent name).toList.getLast? ≠ some '"'
      || decide ((quoteIdent name).toList.length < 2)) = false := by
    rw [toList_quoteIdent, ← List.cons_append, List.getLast?_concat]
    simp
  rw [parseSearchPathSchemaName, (bare_quoteIdent name).trimWhiteSpace, hempty,
    if_neg Bool.false_ne_true, hstart, if_pos rfl, hend, if_neg Bool.false_ne_true, hinner,
    undoubleQuotes_double, String.ofList_toList]

/-- Between quotes, a character that is none is taken. -/
theorem scanSearchPath_char {parts : List String} {current rest : List Char} {c : Char}
    (hc : c ≠ '"') :
  scanSearchPath ⟨parts, current, true⟩ (c :: rest)
    = scanSearchPath ⟨parts, current ++ [c], true⟩ rest
  := by
  rw [scanSearchPath.eq_def]
  dsimp only
  rw [if_neg hc, Bool.not_true, Bool.and_false, if_neg Bool.false_ne_true]

/-- Between quotes, a quote that is not doubled closes them. -/
theorem scanSearchPath_close {parts : List String} {current rest : List Char}
    (hrest : rest.head? ≠ some '"') :
  scanSearchPath ⟨parts, current, true⟩ ('"' :: rest)
    = scanSearchPath ⟨parts, current ++ ['"'], false⟩ rest
  := by
  rw [scanSearchPath, if_pos rfl]
  · rfl
  · rintro more - rfl
    exact hrest rfl

/-- Between quotes, the scan goes to the closing one. -/
theorem scanSearchPath_double {parts : List String} {current chars rest : List Char}
    (hrest : rest.head? ≠ some '"') :
  scanSearchPath ⟨parts, current, true⟩ (double '"' chars ++ '"' :: rest)
    = scanSearchPath ⟨parts, current ++ double '"' chars ++ ['"'], false⟩ rest
  := by
  induction chars generalizing current with
  | nil =>
      rw [double_nil, List.nil_append, List.append_nil, scanSearchPath_close hrest]
  | cons c chars ih =>
      by_cases hc : c = '"'
      · rw [hc, double_quote, List.cons_append, List.cons_append, scanSearchPath, if_pos rfl]
        · dsimp only
          rw [ih]
          simp
        · rfl
      · rw [double_char hc, List.cons_append, scanSearchPath_char hc, ih]
        simp

/-- A name between quotes is one entry. -/
theorem scanSearchPath_quoteIdent {parts : List String} {name : String} {rest : List Char}
    (hrest : rest.head? ≠ some '"') :
  scanSearchPath ⟨parts, [], false⟩ ((quoteIdent name).toList ++ rest)
    = scanSearchPath ⟨parts, (quoteIdent name).toList, false⟩ rest
  := by
  have hopen : ∀ chars, scanSearchPath ⟨parts, [], false⟩ ('"' :: chars)
      = scanSearchPath ⟨parts, ['"'], true⟩ chars := by
    intro chars
    rw [scanSearchPath, if_pos rfl]
    · rfl
    · rintro more ⟨⟩
  rw [toList_quoteIdent, List.cons_append, hopen, List.append_assoc, List.singleton_append,
    scanSearchPath_double hrest]
  rfl

theorem trimWhiteSpace_quoteIdent (name : String) :
  trimWhiteSpace (String.ofList (quoteIdent name).toList) = quoteIdent name
    ∧ (quoteIdent name).isEmpty = false
  := by
  constructor
  · rw [String.ofList_toList, (bare_quoteIdent name).trimWhiteSpace]
  · rw [Bool.eq_false_iff, Ne, String.isEmpty_iff, ← String.toList_eq_nil_iff, toList_quoteIdent]
    simp

/-- Names between quotes are the entries. -/
theorem scanSearchPath_intercalate (parts : List String) (name : String) (names : List String) :
  scanSearchPath ⟨parts, [], false⟩ (",".intercalate ((name :: names).map quoteIdent)).toList
    = .ok (parts ++ (name :: names).map quoteIdent)
  := by
  induction names generalizing parts name with
  | nil =>
      have hone : (",".intercalate ([name].map quoteIdent)).toList
          = (quoteIdent name).toList ++ [] := by
        rw [List.map_singleton, String.intercalate_singleton, List.append_nil]
      rw [hone, scanSearchPath_quoteIdent (by simp), scanSearchPath, if_neg Bool.false_ne_true]
      dsimp only
      rw [(trimWhiteSpace_quoteIdent name).1, (trimWhiteSpace_quoteIdent name).2,
        if_neg Bool.false_ne_true]
      rfl
  | cons next names ih =>
      have hmore : (",".intercalate ((name :: next :: names).map quoteIdent)).toList
          = (quoteIdent name).toList
            ++ ',' :: (",".intercalate ((next :: names).map quoteIdent)).toList := by
        simp only [List.map_cons, String.intercalate_cons_cons, String.toList_append,
          List.append_assoc]
        rfl
      rw [hmore, scanSearchPath_quoteIdent (by simp), scanSearchPath, if_neg (by decide)]
      · dsimp only
        rw [if_pos (by rfl), (trimWhiteSpace_quoteIdent name).1,
          (trimWhiteSpace_quoteIdent name).2, if_neg Bool.false_ne_true, ih]
        simp
      · rintro more ⟨⟩

theorem bare_intercalate (name : String) (names : List String) :
  Bare (",".intercalate ((name :: names).map quoteIdent))
  := by
  induction names generalizing name with
  | nil =>
      rw [List.map_singleton, String.intercalate_singleton]
      apply bare_quoteIdent
  | cons next names ih =>
      rw [List.map_cons, List.map_cons, String.intercalate_cons_cons]
      apply Bare.append (ih next)
      · rw [String.toList_append, toList_quoteIdent]
        rfl
      · rfl

/-- Names between quotes, joined by commas, are the entries of the search path they make. -/
theorem parseSearchPathEntries_quoteIdent {names : List String} (h : names ≠ []) :
  parseSearchPathEntries (",".intercalate (names.map quoteIdent))
    = .ok (names, (names.find? (· ≠ "$user")).getD "public")
  := by
  obtain ⟨name, names, rfl⟩ := List.exists_cons_of_ne_nil h
  have hbare := bare_intercalate name names
  have hnonempty : (",".intercalate ((name :: names).map quoteIdent)).isEmpty = false := by
    rw [Bool.eq_false_iff, Ne, String.isEmpty_iff, ← String.toList_eq_nil_iff]
    exact hbare.nonempty
  have hparts : splitSearchPathEntries (",".intercalate ((name :: names).map quoteIdent))
      = .ok ((name :: names).map quoteIdent) := by
    rw [splitSearchPathEntries, hbare.trimWhiteSpace, hnonempty, if_neg Bool.false_ne_true,
      scanSearchPath_intercalate]
    rfl
  have hentries : ((name :: names).map quoteIdent).mapM parseSearchPathSchemaName
      = .ok (name :: names) := by
    rw [List.mapM_ok_iff, List.forall₂_map_left_iff, List.forall₂_same]
    intro entry _
    apply parseSearchPathSchemaName_quoteIdent
  rw [parseSearchPathEntries, hparts]
  simp only [bind, Except.bind, hentries]
  rfl

/-- The client's statement for the schema of a session. -/
def setSearchPath (name : String) : String := "SET search_path TO " ++ quoteIdent name

theorem parsePostgresSetStatement_setSearchPath (name : String) :
  parsePostgresSetStatement (setSearchPath name)
    = .ok (.set "search_path" (some (quoteIdent name)))
  := by
  have htext : setSearchPath name = setText .none "search_path" (.word 0 0) (quoteIdent name) :=
    rfl
  have hvalue : normalizePostgresSettingValue (quoteIdent name) = some (quoteIdent name) := by
    have hupper : asciiUpper (quoteIdent name) ≠ "DEFAULT" := by
      intro h
      have hlist := congrArg (fun text => text.toList.head?) h
      rw [toList_asciiUpper, toList_quoteIdent] at hlist
      cases hlist
    rw [normalizePostgresSettingValue, (bare_quoteIdent name).trimWhiteSpace, if_neg hupper]
  have hsplits : (Assignment.word 0 0).Splits (quoteIdent name) := trivial
  rw [htext, parsePostgresSetStatement_setText (.inl rfl) (bare_quoteIdent name) hsplits, hvalue]

/-- The schema that the client names between quotes becomes that of the session, and a search path
of names between quotes has these names. -/
theorem searchPath_roundTrip :
  (∀ (client : Metadata) (name : String), name ≠ "$user" →
    ∃ value client',
      parsePostgresSetStatement (setSearchPath name) = .ok (.set "search_path" (some value))
      ∧ applyPostgresSetting client "search_path" (some value) = .ok client'
      ∧ (postgresSessionFromClient client').schema = name)
  ∧ ∀ names : List String, names ≠ [] → (∀ name ∈ names, name ≠ "$user") →
      parseSearchPathEntries (",".intercalate (names.map quoteIdent))
        = .ok (names, names.head?.getD "public")
  := by
  constructor
  · intro client name hname
    have hentries : parseSearchPathEntries (quoteIdent name) = .ok ([name], name) := by
      have h := parseSearchPathEntries_quoteIdent (List.cons_ne_nil name [])
      rw [List.map_singleton, String.intercalate_singleton] at h
      rw [h, List.find?_cons_of_pos (by simpa using hname)]
      rfl
    refine ⟨quoteIdent name, (client.insert POSTGRES_SCHEMA_METADATA name).insert
      (postgresSettingMetadataKey "search_path") (", ".intercalate [name]),
      parsePostgresSetStatement_setSearchPath name, ?_, ?_⟩
    · rw [applyPostgresSetting, if_pos rfl]
      dsimp only
      rw [hentries]
      rfl
    · rw [postgresSessionFromClient]
      dsimp only
      rw [KeyMap.get_insert, if_neg (settingKey_ne schema_not_setting "search_path"),
        KeyMap.get_insert, if_pos rfl]
      rfl
  · intro names hne hnames
    rw [parseSearchPathEntries_quoteIdent hne]
    obtain ⟨name, names, rfl⟩ := List.exists_cons_of_ne_nil hne
    rw [List.find?_cons_of_pos (by simpa using hnames name List.mem_cons_self)]
    rfl

theorem searchPath_roundTrip_keywords :
  (∃ value client',
    parsePostgresSetStatement (setSearchPath "\"a\" TO DEFAULT; b, c")
      = .ok (.set "search_path" (some value))
    ∧ applyPostgresSetting ∅ "search_path" (some value) = .ok client'
    ∧ (postgresSessionFromClient client').schema = "\"a\" TO DEFAULT; b, c")
  ∧ parseSearchPathEntries (",".intercalate (["\"", "", ", "].map quoteIdent))
    = .ok (["\"", "", ", "], "\"")
  := ⟨searchPath_roundTrip.1 ∅ _ (by decide),
    searchPath_roundTrip.2 ["\"", "", ", "] (by decide) (by decide)⟩

end Postgres
