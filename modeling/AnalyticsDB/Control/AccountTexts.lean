import AnalyticsDB.Control.Statements
import AnalyticsDB.Lib.Text
import AnalyticsDB.Storage.Location
import Mathlib

/-!
# The texts of statements on accounts

A statement on users and groups is read off its text by the words in it: what stands between them
are the names.  A parser of SQL reads each text before, and the text is replaced by how the parser
prints it; of statements on accounts the parser itself knows those that drop a user.

Names that are identifiers are read as they stand, and so is a password between quotes.
-/

/-- A text without these characters at its end. -/
def trimEndMatches (c : Char) (text : String) : String :=
  String.ofList (text.toList.rdropWhile (· = c))

/-- The characters before and after the first place where a keyword stands, in any case. -/
def splitAtKeyword (keyword : List Char) : List Char → Option (List Char × List Char)
  | [] => none
  | c :: rest =>
    if keyword.isPrefixOf ((c :: rest).map Char.toUpper) then
      some ([], (c :: rest).drop keyword.length)
    else
      (splitAtKeyword keyword rest).map (fun (before, after) => (c :: before, after))

/-- What stands before and after a keyword, without the white space around it. -/
def aroundKeyword (text keyword : String) : Option (String × String) :=
  (splitAtKeyword keyword.toList text.toList).map (fun (before, after) =>
    (trimWhiteSpace (String.ofList before), trimWhiteSpace (String.ofList after)))

/-- What comes after a keyword that a text starts with. -/
def afterKeyword (text keyword : String) : Option String :=
  if startsWith (asciiUpper text) keyword then
    some (trimWhiteSpace (String.ofList (text.toList.drop keyword.toList.length)))
  else
    none

/-- The characters between quotes, with each doubled quote read as one. -/
def unescapeQuotes : List Char → Option (List Char)
  | [] => some []
  | '\'' :: '\'' :: rest => (unescapeQuotes rest).map ('\'' :: ·)
  | '\'' :: _ => none
  | c :: rest => (unescapeQuotes rest).map (c :: ·)

def parseSqlSingleQuotedLiteral (raw : String) : Option String :=
  match (trimWhiteSpace raw).toList with
  | '\'' :: rest =>
    if rest.getLast? = some '\'' then (unescapeQuotes rest.dropLast).map String.ofList else none
  | _ => none

/-- A text without `IF EXISTS` at its start, and whether it was there. -/
def parseIfExists (remainder : String) : String × Bool :=
  match afterKeyword remainder "IF EXISTS " with
  | some name => (name, true)
  | none => (remainder, false)

def parseAlterUser (remainder : String) : Option MetadataStatement := do
  let (userName, passVal) ← aroundKeyword remainder " PASSWORD "
  let password ← parseSqlSingleQuotedLiteral passVal
  return .alterUserPassword userName password

def parseCreateUser (remainder : String) : Option MetadataStatement :=
  match aroundKeyword remainder " PASSWORD " with
  | some (userName, passVal) =>
    (parseSqlSingleQuotedLiteral passVal).map (fun password =>
      .createUser userName (some password))
  | none => some (.createUser remainder none)

def parseDropUser (remainder : String) : Option MetadataStatement :=
  some (.dropUser (parseIfExists remainder).1 (parseIfExists remainder).2)

def parseCreateGroup (name : String) : Option MetadataStatement := some (.createGroup name)

def parseAlterGroup (remainder : String) : Option MetadataStatement :=
  match aroundKeyword remainder " ADD USER " with
  | some (groupName, userName) => some (.alterGroup groupName (.addUser userName))
  | none =>
    match aroundKeyword remainder " DROP USER " with
    | some (groupName, userName) => some (.alterGroup groupName (.dropUser userName))
    | none =>
      (aroundKeyword remainder " RENAME TO ").map (fun (groupName, newName) =>
        .alterGroup groupName (.rename newName))

def parseDropGroup (remainder : String) : Option MetadataStatement :=
  some (.dropGroup (parseIfExists remainder).1 (parseIfExists remainder).2)

/-- The keywords a statement on accounts starts with, and how what follows is read. -/
def accountStatements : List (String × (String → Option MetadataStatement)) :=
  [("ALTER USER ", parseAlterUser), ("CREATE USER ", parseCreateUser),
   ("DROP USER ", parseDropUser), ("CREATE GROUP ", parseCreateGroup),
   ("CREATE ROLE ", parseCreateGroup), ("ALTER GROUP ", parseAlterGroup),
   ("ALTER ROLE ", parseAlterGroup), ("DROP GROUP ", parseDropGroup),
   ("DROP ROLE ", parseDropGroup)]

/-- The text without the white space and the semicolons at its end. -/
def trimmedStatement (sql : String) : String :=
  trimWhiteSpace (trimEndMatches ';' (trimWhiteSpace sql))

/-- The statement on accounts a text is; the keyword it starts with decides how it is read. -/
def parseMetadataStatementFallback (sql : String) : Option MetadataStatement :=
  (accountStatements.findSome? (fun (keyword, parse) =>
    (afterKeyword (trimmedStatement sql) keyword).map parse)).join

/-- What the parser of SQL makes of texts: a text as it is printed again, unless it does not parse,
and the first account, and whether it may be missing, of a text that is one statement that drops
users or roles.  A statement on users is printed with the words it starts with; on groups it knows
none. -/
structure SqlParser where
  reprint : String → Option String
  dropped : String → Option (String × Bool)
  reprint_user : ∀ verb ∈ ["CREATE USER", "ALTER USER", "DROP USER"], ∀ rest text,
    reprint (verb ++ (" " ++ rest)) = some text → ∃ rest', text = verb ++ (" " ++ rest')
  reprint_group : ∀ verb ∈ ["CREATE GROUP", "ALTER GROUP", "DROP GROUP"], ∀ rest,
    reprint (verb ++ (" " ++ rest)) = none
  dropped_drop : ∀ verb ∈ ["CREATE USER", "ALTER USER", "CREATE GROUP", "ALTER GROUP",
    "DROP GROUP"], ∀ rest, dropped (verb ++ (" " ++ rest)) = none

namespace SqlParser

variable (parser : SqlParser)

def parseMetadataStatement (sql : String) : Option MetadataStatement :=
  match parser.dropped sql with
  | some (name, ifExists) => some (.dropUser name ifExists)
  | none => parseMetadataStatementFallback sql

/-- The statement on accounts as which a text is executed. -/
def read (sql : String) : Option MetadataStatement :=
  parser.parseMetadataStatement ((parser.reprint sql).getD sql)

end SqlParser

/-- A parser that knows no statement on accounts. -/
def SqlParser.foreign : SqlParser :=
  { reprint := fun _ => none
    dropped := fun _ => none
    reprint_user := by
      rintro _ _ _ _ ⟨⟩
    reprint_group := fun _ _ _ => rfl
    dropped_drop := fun _ _ _ => rfl }

/-! ### How names and passwords are read -/

/-- Filtering keeps the first result when nothing that has one is filtered out. -/
theorem findSome?_filter {α β : Type} {p : α → Bool} {f : α → Option β} (l : List α)
    (h : ∀ a b, f a = some b → p a = true) :
  (l.filter p).findSome? f = l.findSome? f
  := by
  induction l with
  | nil => rfl
  | cons a l ih =>
      rw [List.filter_cons, List.findSome?_cons]
      cases hf : f a with
      | some b => rw [if_pos (h a b hf), List.findSome?_cons, hf]
      | none =>
          split
          · rw [List.findSome?_cons, hf]
            exact ih
          · exact ih

theorem rdropWhile_append {α : Type} (p : α → Bool) (w x : List α)
    (hlast : ∀ hne : w ≠ [], ¬ p (w.getLast hne)) :
  (w ++ x).rdropWhile p = w ++ x.rdropWhile p
  := by
  have hself : (w.reverse.dropWhile p).reverse = w := List.rdropWhile_eq_self_iff.mpr hlast
  rw [List.rdropWhile, List.reverse_append, List.dropWhile_append]
  split
  · rename_i hempty
    rw [hself, List.rdropWhile, List.isEmpty_iff.mp hempty, List.reverse_nil, List.append_nil]
  · rw [List.reverse_append, List.reverse_reverse, List.rdropWhile]

/-- The words a statement starts with: no white space around them, and no semicolon after them. -/
def isVerb (verb : String) : Bool :=
  verb.toList.head?.any (!isWhiteSpace ·)
    && verb.toList.getLast?.any (fun c => !isWhiteSpace c && c ≠ ';')

section

variable {verb text : String} {x : List Char}

theorem isVerb_head (h : isVerb verb = true) :
  ∃ c w, verb.toList = c :: w ∧ isWhiteSpace c = false
  := by
  rw [isVerb, Bool.and_eq_true] at h
  cases hverb : verb.toList with
  | nil => simp [hverb] at h
  | cons c w => exact ⟨c, w, rfl, by simpa [hverb] using h.1⟩

theorem isVerb_getLast (h : isVerb verb = true) (hne : verb.toList ≠ []) :
  isWhiteSpace (verb.toList.getLast hne) = false ∧ verb.toList.getLast hne ≠ ';'
  := by
  rw [isVerb, Bool.and_eq_true, List.getLast?_eq_some_getLast hne] at h
  simpa using h.2

/-- Trimming keeps the words at the start of a text. -/
theorem trimWhiteSpace_verb (hverb : isVerb verb = true) (htext : text.toList = verb.toList ++ x) :
  (trimWhiteSpace text).toList = verb.toList ++ x.rdropWhile isWhiteSpace
  := by
  obtain ⟨c, w, hw, hc⟩ := isVerb_head hverb
  have hdrop : text.toList.dropWhile isWhiteSpace = verb.toList ++ x := by
    rw [htext, hw, List.cons_append, List.dropWhile_cons_of_neg (by simp [hc])]
  rw [trimWhiteSpace, String.toList_ofList, hdrop]
  apply rdropWhile_append
  intro hne
  simp [(isVerb_getLast hverb hne).1]

theorem trimmedStatement_verb (hverb : isVerb verb = true)
    (htext : text.toList = verb.toList ++ x) :
  ∃ s, (trimmedStatement text).toList = verb.toList ++ s
  := by
  have hsemicolons : (trimEndMatches ';' (trimWhiteSpace text)).toList
      = verb.toList ++ (x.rdropWhile isWhiteSpace).rdropWhile (· = ';') := by
    rw [trimEndMatches, String.toList_ofList, trimWhiteSpace_verb hverb htext]
    apply rdropWhile_append
    intro hne
    simpa using (isVerb_getLast hverb hne).2
  exact ⟨_, trimWhiteSpace_verb hverb hsemicolons⟩

/-- Whether a text that starts with these words can start with a keyword. -/
def agreesWith (verb keyword : String) : Bool :=
  keyword.toList.take verb.toList.length
    == (verb.toList.map Char.toUpper).take keyword.toList.length

/-- A text that starts with other words does not start with a keyword. -/
theorem agreesWith_of_afterKeyword {keyword remainder : String}
    (htext : text.toList = verb.toList ++ x) (h : afterKeyword text keyword = some remainder) :
  agreesWith verb keyword = true
  := by
  rw [afterKeyword] at h
  split at h
  · rename_i hstarts
    rw [startsWith, asciiUpper, String.toList_ofList, htext, List.isPrefixOf_iff_prefix,
      List.prefix_iff_eq_take, List.map_append] at hstarts
    have hlength : verb.toList.length = (verb.toList.map Char.toUpper).length := by simp
    rw [agreesWith, beq_iff_eq, hlength]
    conv_lhs => rw [hstarts]
    rw [List.take_take, Nat.min_comm, ← List.take_take, List.take_left]
  · cases h

/-- A text is read by a statement whose keyword it can start with. -/
theorem fallback_verb (hverb : isVerb verb = true) (htext : text.toList = verb.toList ++ x) :
  parseMetadataStatementFallback text
    = ((accountStatements.filter (agreesWith verb ·.1)).findSome? (fun entry =>
      (afterKeyword (trimmedStatement text) entry.1).map entry.2)).join
  := by
  obtain ⟨s, hs⟩ := trimmedStatement_verb hverb htext
  rw [parseMetadataStatementFallback, findSome?_filter]
  intro entry read hread
  obtain ⟨remainder, hremainder, -⟩ := Option.map_eq_some_iff.mp hread
  exact agreesWith_of_afterKeyword hs hremainder

/-- The words that a statement on accounts starts with, roles apart. -/
def accountVerbs : List String :=
  ["CREATE USER", "ALTER USER", "DROP USER", "CREATE GROUP", "ALTER GROUP", "DROP GROUP"]

/-- The words of a statement on accounts and a blank are its keyword, and no other keyword agrees
with them. -/
theorem keyword_of_verb :
  ∀ verb ∈ accountVerbs, isVerb verb = true ∧ asciiUpper (verb ++ " ") = verb ++ " "
    ∧ (accountStatements.map Prod.fst).filter (agreesWith verb) = [verb ++ " "]
  := by decide

/-- Where one image passes, the elements that pass are those with this image. -/
theorem filter_eq_singleton {α β : Type} {f : α → β} {p : β → Bool} {l : List α} {a : α}
    (h : (l.map f).filter p = [f a]) (ha : a ∈ l) :
  l.filter (p ∘ f) = [a]
  := by
  rw [List.filter_map] at h
  obtain ⟨a', hfilter, -⟩ := List.map_eq_singleton_iff.mp h
  have hp : f a ∈ (l.map f).filter p := by
    rw [List.filter_map, h]
    exact List.mem_singleton_self _
  have hmem : a ∈ l.filter (p ∘ f) := List.mem_filter.mpr ⟨ha, (List.mem_filter.mp hp).2⟩
  rw [hfilter, List.mem_singleton] at hmem
  rw [hfilter, hmem]

/-- A text that starts with the words of a statement on accounts is read by it. -/
theorem fallback_eq (parse : String → Option MetadataStatement) (hverb : verb ∈ accountVerbs)
    (hparse : (verb ++ " ", parse) ∈ accountStatements) (htext : text.toList = verb.toList ++ x) :
  parseMetadataStatementFallback text
    = (afterKeyword (trimmedStatement text) (verb ++ " ")).bind parse
  := by
  obtain ⟨hisVerb, -, hkeywords⟩ := keyword_of_verb verb hverb
  have hfilter : accountStatements.filter (agreesWith verb ·.1) = [(verb ++ " ", parse)] :=
    filter_eq_singleton (a := (verb ++ " ", parse)) hkeywords hparse
  rw [fallback_verb hisVerb htext, hfilter, List.findSome?_singleton]
  cases afterKeyword (trimmedStatement text) (verb ++ " ") with
  | none => rfl
  | some remainder => rfl

end

/-! ### The kind of a statement -/

theorem parseCreateUser_kind {remainder : String} {statement : MetadataStatement}
    (h : parseCreateUser remainder = some statement) :
  ∃ name password, statement = .createUser name password
  := by
  rw [parseCreateUser] at h
  split at h
  · obtain ⟨password, -, rfl⟩ := Option.map_eq_some_iff.mp h
    exact ⟨_, _, rfl⟩
  · cases h
    exact ⟨_, _, rfl⟩

theorem parseAlterUser_kind {remainder : String} {statement : MetadataStatement}
    (h : parseAlterUser remainder = some statement) :
  ∃ name password, statement = .alterUserPassword name password
  := by
  obtain ⟨around, -, h⟩ := Option.bind_eq_some_iff.mp h
  obtain ⟨password, -, h⟩ := Option.bind_eq_some_iff.mp h
  cases h
  exact ⟨_, _, rfl⟩

theorem parseAlterGroup_kind {remainder : String} {statement : MetadataStatement}
    (h : parseAlterGroup remainder = some statement) :
  ∃ name operation, statement = .alterGroup name operation
  := by
  rw [parseAlterGroup] at h
  split at h
  · cases h
    exact ⟨_, _, rfl⟩
  · split at h
    · cases h
      exact ⟨_, _, rfl⟩
    · obtain ⟨around, -, rfl⟩ := Option.map_eq_some_iff.mp h
      exact ⟨_, _, rfl⟩

namespace SqlParser

variable (parser : SqlParser) (rest : String) {statement : MetadataStatement}

/-- A statement that creates users or alters them is read, printed again or not, off a text that
starts with the same words. -/
theorem read_user (verb : String) (hverb : verb ∈ ["CREATE USER", "ALTER USER"]) :
  ∃ rest', parser.read (verb ++ (" " ++ rest))
    = parseMetadataStatementFallback (verb ++ (" " ++ rest'))
  := by
  have hdropped : ∀ rest', parser.dropped (verb ++ (" " ++ rest')) = none := by
    apply parser.dropped_drop
    exact List.mem_append_left ["CREATE GROUP", "ALTER GROUP", "DROP GROUP"] hverb
  rw [read]
  cases hprint : parser.reprint (verb ++ (" " ++ rest)) with
  | none =>
      refine ⟨rest, ?_⟩
      rw [Option.getD_none, parseMetadataStatement, hdropped]
  | some text =>
      have husers : verb ∈ ["CREATE USER", "ALTER USER", "DROP USER"] :=
        List.mem_append_left ["DROP USER"] hverb
      obtain ⟨rest', rfl⟩ := parser.reprint_user verb husers rest text hprint
      refine ⟨rest', ?_⟩
      rw [Option.getD_some, parseMetadataStatement, hdropped]

/-- A statement on groups is read off its own text. -/
theorem read_group (verb : String)
    (hverb : verb ∈ ["CREATE GROUP", "ALTER GROUP", "DROP GROUP"]) :
  parser.read (verb ++ (" " ++ rest)) = parseMetadataStatementFallback (verb ++ (" " ++ rest))
  := by
  rw [read, parser.reprint_group verb hverb, Option.getD_none, parseMetadataStatement,
    parser.dropped_drop verb]
  exact List.mem_append_right ["CREATE USER", "ALTER USER"] hverb

theorem read_createUser (h : parser.read ("CREATE USER" ++ (" " ++ rest)) = some statement) :
  ∃ name password, statement = .createUser name password
  := by
  obtain ⟨rest', hread⟩ := parser.read_user rest "CREATE USER" (by simp)
  rw [hread, fallback_eq parseCreateUser (by simp [accountVerbs]) (by simp [accountStatements])
      String.toList_append, Option.bind_eq_some_iff] at h
  obtain ⟨remainder, -, hparse⟩ := h
  exact parseCreateUser_kind hparse

theorem read_alterUser (h : parser.read ("ALTER USER" ++ (" " ++ rest)) = some statement) :
  ∃ name password, statement = .alterUserPassword name password
  := by
  obtain ⟨rest', hread⟩ := parser.read_user rest "ALTER USER" (by simp)
  rw [hread, fallback_eq parseAlterUser (by simp [accountVerbs]) (by simp [accountStatements])
      String.toList_append, Option.bind_eq_some_iff] at h
  obtain ⟨remainder, -, hparse⟩ := h
  exact parseAlterUser_kind hparse

theorem read_dropUser (h : parser.read ("DROP USER" ++ (" " ++ rest)) = some statement) :
  ∃ name ifExists, statement = .dropUser name ifExists
  := by
  have hprinted : ∃ rest', (parser.reprint ("DROP USER" ++ (" " ++ rest))).getD
      ("DROP USER" ++ (" " ++ rest)) = "DROP USER" ++ (" " ++ rest') := by
    cases hprint : parser.reprint ("DROP USER" ++ (" " ++ rest)) with
    | none => exact ⟨rest, rfl⟩
    | some text => exact parser.reprint_user _ (by simp) rest text hprint
  obtain ⟨rest', hrest'⟩ := hprinted
  rw [read, hrest', parseMetadataStatement] at h
  split at h
  · cases h
    exact ⟨_, _, rfl⟩
  · rw [fallback_eq parseDropUser (by simp [accountVerbs]) (by simp [accountStatements])
        String.toList_append, Option.bind_eq_some_iff] at h
    obtain ⟨remainder, -, hparse⟩ := h
    cases hparse
    exact ⟨_, _, rfl⟩

theorem read_createGroup (h : parser.read ("CREATE GROUP" ++ (" " ++ rest)) = some statement) :
  ∃ name, statement = .createGroup name
  := by
  rw [read_group parser rest "CREATE GROUP" (by simp),
    fallback_eq parseCreateGroup (by simp [accountVerbs]) (by simp [accountStatements])
      String.toList_append, Option.bind_eq_some_iff] at h
  obtain ⟨remainder, -, hparse⟩ := h
  cases hparse
  exact ⟨_, rfl⟩

theorem read_dropGroup (h : parser.read ("DROP GROUP" ++ (" " ++ rest)) = some statement) :
  ∃ name ifExists, statement = .dropGroup name ifExists
  := by
  rw [read_group parser rest "DROP GROUP" (by simp),
    fallback_eq parseDropGroup (by simp [accountVerbs]) (by simp [accountStatements])
      String.toList_append, Option.bind_eq_some_iff] at h
  obtain ⟨remainder, -, hparse⟩ := h
  cases hparse
  exact ⟨_, _, rfl⟩

theorem read_alterGroup (h : parser.read ("ALTER GROUP" ++ (" " ++ rest)) = some statement) :
  ∃ name operation, statement = .alterGroup name operation
  := by
  rw [read_group parser rest "ALTER GROUP" (by simp),
    fallback_eq parseAlterGroup (by simp [accountVerbs]) (by simp [accountStatements])
      String.toList_append, Option.bind_eq_some_iff] at h
  obtain ⟨remainder, -, hparse⟩ := h
  exact parseAlterGroup_kind hparse

end SqlParser

/-! ### Names that are identifiers -/

/-- The characters of identifiers are ASCII letters, digits and the underscore. -/
theorem toNat_of_identifierChar {c : Char} (h : isIdentifierChar c = true) :
  (48 ≤ c.toNat ∧ c.toNat ≤ 57) ∨ (65 ≤ c.toNat ∧ c.toNat ≤ 90) ∨ c.toNat = 95
    ∨ (97 ≤ c.toNat ∧ c.toNat ≤ 122)
  := by
  simp only [isIdentifierChar, Char.isAlphanum, Char.isAlpha, Char.isUpper, Char.isLower,
    Char.isDigit, Bool.or_eq_true, Bool.and_eq_true, decide_eq_true_eq, beq_iff_eq, ge_iff_le,
    UInt32.le_iff_toNat_le] at h
  obtain ((h | h) | h) | rfl := h
  · exact .inr (.inl h)
  · exact .inr (.inr (.inr h))
  · exact .inl h
  · exact .inr (.inr (.inl rfl))

theorem isWhiteSpace_of_identifierChar {c : Char} (h : isIdentifierChar c = true) :
  isWhiteSpace c = false
  := by
  have hc := toNat_of_identifierChar h
  simp only [isWhiteSpace, Bool.or_eq_false_iff, Bool.and_eq_false_iff, decide_eq_false_iff_not,
    beq_eq_false_iff_ne]
  omega

theorem toUpper_of_identifierChar {c : Char} (h : isIdentifierChar c = true) : c.toUpper ≠ ' '
  := by
  have hc := toNat_of_identifierChar h
  intro hspace
  rw [Char.toUpper] at hspace
  split at hspace
  · rename_i hlower
    have hval := congrArg Char.toNat hspace
    simp only [Char.toNat, UInt32.le_iff_toNat_le, UInt32.toNat_add] at hval hlower
    have hlow : 'a'.val.toNat = 97 := rfl
    have hshift : ('A'.val - 'a'.val).toNat = 4294967264 := rfl
    have hblank : ' '.val.toNat = 32 := rfl
    have hhigh : 'z'.val.toNat = 122 := rfl
    omega
  · subst hspace
    revert hc
    decide

/-- A text that could stand at the start of a statement has nothing around it to trim. -/
theorem trimWhiteSpace_eq_self {text : String} (h : isVerb text = true) :
  trimWhiteSpace text = text
  := by
  apply String.toList_inj.mp
  rw [trimWhiteSpace_verb h (List.append_nil _).symm, List.rdropWhile_nil, List.append_nil]

theorem trimmedStatement_eq_self {text : String} (h : isVerb text = true) :
  trimmedStatement text = text
  := by
  have hsemicolons : trimEndMatches ';' text = text := by
    rw [trimEndMatches, List.rdropWhile_eq_self_iff.mpr, String.ofList_toList]
    intro hne
    simpa using (isVerb_getLast h hne).2
  rw [trimmedStatement, trimWhiteSpace_eq_self h, hsemicolons, trimWhiteSpace_eq_self h]

/-- What stands between two such texts does not matter. -/
theorem isVerb_between {first last : String} (hfirst : isVerb first = true)
    (hlast : isVerb last = true) (between : String) :
  isVerb (first ++ (between ++ last)) = true
  := by
  rw [isVerb, Bool.and_eq_true] at hfirst hlast ⊢
  simp only [String.toList_append]
  constructor
  · cases hfirst' : first.toList with
    | nil => simp [hfirst'] at hfirst
    | cons c w => simpa [hfirst'] using hfirst.1
  · have hne : last.toList ≠ [] := by
      intro hnil
      simp [hnil] at hlast
    rw [List.getLast?_append_of_ne_nil _ (by simp [hne]), List.getLast?_append_of_ne_nil _ hne]
    exact hlast.2

theorem isVerb_identifier {name : String} (h : validateIdentifier name = .ok ()) :
  isVerb name = true
  := by
  obtain ⟨hne, hall⟩ := validateIdentifier_ok h
  rw [List.all_eq_true] at hall
  have hne' : name.toList ≠ [] := by
    intro hnil
    simp [← String.toList_inj, hnil] at hne
  rw [isVerb, Bool.and_eq_true, List.getLast?_eq_some_getLast hne',
    List.head?_eq_some_head hne']
  have hfirst := isWhiteSpace_of_identifierChar (hall _ (List.head_mem hne'))
  have hlast := hall _ (List.getLast_mem hne')
  simp only [Option.any_some, hfirst, isWhiteSpace_of_identifierChar hlast, Bool.not_false,
    Bool.true_and, decide_eq_true_eq, true_and]
  rintro hsemicolon
  rw [hsemicolon] at hlast
  revert hlast
  decide

/-- What comes after a keyword. -/
theorem afterKeyword_append (keyword rest : String) (hupper : asciiUpper keyword = keyword) :
  afterKeyword (keyword ++ rest) keyword = some (trimWhiteSpace rest)
  := by
  rw [afterKeyword, if_pos]
  · simp
  · rw [startsWith, List.isPrefixOf_iff_prefix]
    rw [asciiUpper, ← String.toList_inj, String.toList_ofList] at hupper
    rw [asciiUpper, String.toList_ofList, String.toList_append, List.map_append, hupper]
    exact List.prefix_append _ _

/-- Where a keyword does not stand, it is looked for in the rest. -/
theorem splitAtKeyword_cons {keyword : List Char} {c : Char} {rest : List Char}
    (h : keyword.isPrefixOf ((c :: rest).map Char.toUpper) = false) :
  splitAtKeyword keyword (c :: rest)
    = (splitAtKeyword keyword rest).map (fun (before, after) => (c :: before, after))
  := by
  rw [splitAtKeyword, if_neg (Bool.eq_false_iff.mp h)]

/-- The first place of a keyword that starts with a blank is not among characters without one. -/
theorem splitAtKeyword_append (keyword : List Char) {before : List Char} (rest : List Char)
    (hbefore : ∀ c ∈ before, c.toUpper ≠ ' ') :
  splitAtKeyword (' ' :: keyword) (before ++ rest)
    = (splitAtKeyword (' ' :: keyword) rest).map (fun (x, y) => (before ++ x, y))
  := by
  induction before with
  | nil => simp
  | cons c before ih =>
      have hc : ¬ (' ' = c.toUpper) := fun h => hbefore c List.mem_cons_self h.symm
      rw [List.cons_append, splitAtKeyword_cons (by simp [List.isPrefixOf, hc]),
        ih (fun d hd => hbefore d (List.mem_cons_of_mem c hd)), Option.map_map]
      rfl

theorem toUpper_of_identifier {name : String} (h : validateIdentifier name = .ok ()) :
  ∀ c ∈ name.toList, c.toUpper ≠ ' '
  := by
  intro c hc
  exact toUpper_of_identifierChar (List.all_eq_true.mp (validateIdentifier_ok h).2 c hc)

/-- A keyword after an identifier is found where it stands. -/
theorem aroundKeyword_identifier {keyword : String} {k : List Char} {before : String}
    (hkeyword : keyword.toList = ' ' :: k) (hupper : asciiUpper keyword = keyword)
    (hbefore : validateIdentifier before = .ok ()) (after : String) :
  aroundKeyword (before ++ (keyword ++ after)) keyword = some (before, trimWhiteSpace after)
  := by
  have hfound : splitAtKeyword (' ' :: k) (' ' :: k ++ after.toList) = some ([], after.toList) := by
    rw [asciiUpper, ← String.toList_inj, String.toList_ofList, hkeyword] at hupper
    rw [List.cons_append, splitAtKeyword, if_pos]
    · simp
    · rw [List.isPrefixOf_iff_prefix, ← List.cons_append, List.map_append, hupper]
      exact List.prefix_append _ _
  rw [aroundKeyword, String.toList_append, String.toList_append, hkeyword,
    splitAtKeyword_append k _ (toUpper_of_identifier hbefore), hfound]
  simp [trimWhiteSpace_eq_self (isVerb_identifier hbefore)]

/-- A keyword that starts with a blank is not in an identifier. -/
theorem splitAtKeyword_identifier {name : String} (k : List Char)
    (h : validateIdentifier name = .ok ()) :
  splitAtKeyword (' ' :: k) name.toList = none
  := by
  rw [← List.append_nil name.toList, splitAtKeyword_append k _ (toUpper_of_identifier h)]
  rfl

/-- What comes after the words of a statement is read as it stands. -/
theorem fallback_rest {verb rest : String} (parse : String → Option MetadataStatement)
    (hverb : verb ∈ accountVerbs) (hparse : (verb ++ " ", parse) ∈ accountStatements)
    (hrest : isVerb rest = true) :
  parseMetadataStatementFallback (verb ++ (" " ++ rest)) = parse rest
  := by
  obtain ⟨hisVerb, hupper, -⟩ := keyword_of_verb verb hverb
  rw [fallback_eq parse hverb hparse String.toList_append,
    trimmedStatement_eq_self (isVerb_between hisVerb hrest " "), ← String.append_assoc,
    afterKeyword_append _ rest hupper, trimWhiteSpace_eq_self hrest, Option.bind_some]

/-- An identifier does not start with `IF EXISTS`. -/
theorem parseIfExists_identifier {name : String} (h : validateIdentifier name = .ok ()) :
  parseIfExists name = (name, false)
  := by
  have hnone : afterKeyword name "IF EXISTS " = none := by
    rw [afterKeyword, if_neg]
    intro hstarts
    have hstarts' : "IF EXISTS ".toList <+: name.toList.map Char.toUpper := by
      simpa [startsWith, asciiUpper] using hstarts
    obtain ⟨c, hc, hblank⟩ := List.mem_map.mp (hstarts'.subset (by decide : ' ' ∈ _))
    exact toUpper_of_identifier h c hc hblank
  rw [parseIfExists, hnone]

/-- A keyword of two words is not found in a blank and an identifier. -/
theorem splitAtKeyword_blank {name : String} {k : List Char} (hk : ' ' ∈ k)
    (h : validateIdentifier name = .ok ()) :
  splitAtKeyword (' ' :: k) (' ' :: name.toList) = none
  := by
  rw [splitAtKeyword, if_neg, splitAtKeyword_identifier k h]
  · rfl
  · intro hstarts
    rw [List.isPrefixOf_iff_prefix, List.map_cons] at hstarts
    have hk' := (List.cons_prefix_cons.mp hstarts).2
    obtain ⟨c, hc, hblank⟩ := List.mem_map.mp (hk'.subset hk)
    exact toUpper_of_identifier h c hc hblank

section

variable {name groupName userName literal password : String}
  (hname : validateIdentifier name = .ok ()) (hgroup : validateIdentifier groupName = .ok ())
  (huser : validateIdentifier userName = .ok ()) (hliteral : isVerb literal = true)
  (hpassword : parseSqlSingleQuotedLiteral literal = some password)

include hname hliteral hpassword in
theorem fallback_createUser :
  parseMetadataStatementFallback ("CREATE USER" ++ (" " ++ (name ++ (" PASSWORD " ++ literal))))
    = some (.createUser name (some password))
  := by
  rw [fallback_rest parseCreateUser (by simp [accountVerbs]) (by simp [accountStatements])
    (isVerb_between (isVerb_identifier hname) hliteral _), parseCreateUser,
    aroundKeyword_identifier (by rfl) (by decide) hname, trimWhiteSpace_eq_self hliteral]
  simp [hpassword]

include hname hliteral hpassword in
theorem fallback_alterUser :
  parseMetadataStatementFallback ("ALTER USER" ++ (" " ++ (name ++ (" PASSWORD " ++ literal))))
    = some (.alterUserPassword name password)
  := by
  rw [fallback_rest parseAlterUser (by simp [accountVerbs]) (by simp [accountStatements])
    (isVerb_between (isVerb_identifier hname) hliteral _), parseAlterUser,
    aroundKeyword_identifier (by rfl) (by decide) hname, trimWhiteSpace_eq_self hliteral]
  simp [hpassword]

include hname in
theorem fallback_createGroup :
  parseMetadataStatementFallback ("CREATE GROUP" ++ (" " ++ name)) = some (.createGroup name)
  := by
  rw [fallback_rest parseCreateGroup (by simp [accountVerbs]) (by simp [accountStatements])
    (isVerb_identifier hname), parseCreateGroup]

include hname in
theorem fallback_dropUser :
  parseMetadataStatementFallback ("DROP USER" ++ (" " ++ name)) = some (.dropUser name false)
  := by
  rw [fallback_rest parseDropUser (by simp [accountVerbs]) (by simp [accountStatements])
    (isVerb_identifier hname), parseDropUser, parseIfExists_identifier hname]

include hname in
theorem fallback_dropGroup :
  parseMetadataStatementFallback ("DROP GROUP" ++ (" " ++ name)) = some (.dropGroup name false)
  := by
  rw [fallback_rest parseDropGroup (by simp [accountVerbs]) (by simp [accountStatements])
    (isVerb_identifier hname), parseDropGroup, parseIfExists_identifier hname]

include hgroup huser in
theorem fallback_addUser :
  parseMetadataStatementFallback
    ("ALTER GROUP" ++ (" " ++ (groupName ++ (" ADD USER " ++ userName))))
    = some (.alterGroup groupName (.addUser userName))
  := by
  rw [fallback_rest parseAlterGroup (by simp [accountVerbs]) (by simp [accountStatements])
    (isVerb_between (isVerb_identifier hgroup) (isVerb_identifier huser) _), parseAlterGroup,
    aroundKeyword_identifier (by rfl) (by decide) hgroup,
    trimWhiteSpace_eq_self (isVerb_identifier huser)]

include hgroup huser in
theorem fallback_removeUser :
  parseMetadataStatementFallback
    ("ALTER GROUP" ++ (" " ++ (groupName ++ (" DROP USER " ++ userName))))
    = some (.alterGroup groupName (.dropUser userName))
  := by
  have hkeyword : " ADD USER ".toList = ' ' :: "ADD USER ".toList := by rfl
  have hadd : aroundKeyword (groupName ++ (" DROP USER " ++ userName)) " ADD USER " = none := by
    -- the keyword stands neither at a blank of ` DROP USER ` nor in the name after it
    have hwords : " DROP USER ".toList ++ userName.toList
        = ' ' :: ("DROP".toList ++ (' ' :: ("USER".toList ++ (' ' :: userName.toList)))) := by rfl
    rw [aroundKeyword, String.toList_append, String.toList_append, hkeyword, hwords,
      splitAtKeyword_append _ _ (toUpper_of_identifier hgroup), splitAtKeyword_cons (by rfl),
      splitAtKeyword_append _ _ (forall_mem_of_all (by decide)), splitAtKeyword_cons (by rfl),
      splitAtKeyword_append _ _ (forall_mem_of_all (by decide)),
      splitAtKeyword_blank (by decide) huser]
    rfl
  rw [fallback_rest parseAlterGroup (by simp [accountVerbs]) (by simp [accountStatements])
    (isVerb_between (isVerb_identifier hgroup) (isVerb_identifier huser) _), parseAlterGroup, hadd,
    aroundKeyword_identifier (by rfl) (by decide) hgroup,
    trimWhiteSpace_eq_self (isVerb_identifier huser)]

end

example : parseMetadataStatementFallback "alter group staff add user eve;"
    = some (.alterGroup "staff" (.addUser "eve")) := by rfl

example : parseMetadataStatementFallback "CREATE USER eve PASSWORD 'it''s'"
    = some (.createUser "eve" (some "it's")) := by rfl
