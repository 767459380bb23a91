import AnalyticsDB.Control.Accounts
import AnalyticsDB.Control.Grants
import AnalyticsDB.Lib.Effect

/-!
# The file of the catalogue

A catalogue is stored in a JSON file or in a SQLite file.  A SQLite file has one table for each
map of the catalogue, with one row for each entry, and a table `meta` for the rest.  What is
proved is what saving a catalogue over any content and loading it again gives: the catalogue
without its storage policies.
-/

/-- How values are written as texts and read back, as `serde_json` does. -/
structure Codec (α : Type) where
  encode : α → Except String String
  decode : String → Except String α

/-- A value is read back as it was written. -/
def Codec.RoundTrips {α : Type} (codec : Codec α) (a : α) : Prop :=
  ∃ text, codec.encode a = .ok text ∧ codec.decode text = .ok a

/-- The texts of the entities of the catalogue. -/
structure Serde where
  database : Codec CatalogDatabase
  user : Codec CatalogUser
  node : Codec ClusterNode
  relation : Codec CatalogRelation
  function : Codec CatalogFunction
  aggregate : Codec CatalogAggregate
  collation : Codec CatalogCollation
  conversion : Codec CatalogConversion
  config : Codec ClusterConfig
  state : Codec CatalogState

/-- The tables of a SQLite file that hold the catalogue. -/
structure CatalogFile where
  databases : KeyMap String
  users : KeyMap String
  nodes : KeyMap String
  relations : KeyMap String
  functions : KeyMap String
  aggregates : KeyMap String
  collations : KeyMap String
  conversions : KeyMap String
  metadata : KeyMap String

/-- A catalogue written as texts. -/
structure SerializableState where
  databases : List (String × String)
  users : List (String × String)
  nodes : List (String × String)
  relations : List (String × String)
  functions : List (String × String)
  aggregates : List (String × String)
  collations : List (String × String)
  conversions : List (String × String)
  config : Option String
  catalogueVersion : Nat

section

variable {α : Type} (codec : Codec α)

def encodeMap (map : KeyMap α) : Except String (List (String × String)) :=
  map.toList.mapM (fun entry => do
    let text ← codec.encode entry.2
    return (entry.1, text))

/-- Decode one row and put it into the map read so far. -/
def loadRow (out : KeyMap α) (row : String × String) : Except String (KeyMap α) :=
  match codec.decode row.2 with
  | .ok value => .ok (out.insert row.1 value)
  | .error _ => .error s!"decoding catalogue row '{row.1}'"

def loadKeyed (table : KeyMap String) : Except String (KeyMap α) :=
  table.toList.foldlM (loadRow codec) ∅

end

/-- Insert or update all the rows, then delete the rows whose keys are not among theirs. -/
def replaceKeyed (table : KeyMap String) (rows : List (String × String)) : KeyMap String :=
  let upserted := rows.foldl (fun table row => table.insert row.1 row.2) table
  let keys : NameSet := Std.ExtTreeSet.ofList (rows.map Prod.fst)
  if keys.isEmpty then
    ∅
  else
    upserted.filter (fun key _ => keys.contains key)

/-- Read a number as `u64` is parsed: digits, with an optional sign. -/
def parseU64 (text : String) : Option Nat :=
  let digits := match text.toList with
    | '+' :: digits => digits
    | digits => digits
  if digits ≠ [] ∧ digits.all Char.isDigit = true ∧ Nat.ofDigitChars 10 digits 0 ≤ u64Max then
    some (Nat.ofDigitChars 10 digits 0)
  else
    none

section

variable (serde : Serde)

def SerializableState.tryFrom (state : CatalogState) : Except String SerializableState := do
  let databases ← encodeMap serde.database state.databases
  let users ← encodeMap serde.user state.users
  let nodes ← encodeMap serde.node state.nodes
  let relations ← encodeMap serde.relation state.relations
  let functions ← encodeMap serde.function state.functions
  let aggregates ← encodeMap serde.aggregate state.aggregates
  let collations ← encodeMap serde.collation state.collations
  let conversions ← encodeMap serde.conversion state.conversions
  let config ← state.config.mapM serde.config.encode
  return { databases, users, nodes, relations, functions, aggregates, collations, conversions
           config, catalogueVersion := state.catalogueVersion }

namespace SqliteCatalogStore

/-- The file after a catalogue is saved over its content, in one transaction. -/
def saveBlocking (file : CatalogFile) (state : SerializableState) : CatalogFile :=
  { databases := replaceKeyed file.databases state.databases
    users := replaceKeyed file.users state.users
    nodes := replaceKeyed file.nodes state.nodes
    relations := replaceKeyed file.relations state.relations
    functions := replaceKeyed file.functions state.functions
    aggregates := replaceKeyed file.aggregates state.aggregates
    collations := replaceKeyed file.collations state.collations
    conversions := replaceKeyed file.conversions state.conversions
    metadata :=
      (match state.config with
        | some raw => file.metadata.insert "config" raw
        | none => file.metadata.erase "config").insert
        "catalogue_version" (toString state.catalogueVersion) }

def saveState (file : CatalogFile) (state : CatalogState) : Except String CatalogFile := do
  let serializable ← SerializableState.tryFrom serde state
  return saveBlocking file serializable

/-- The storage policies are not in the file. -/
def load (file : CatalogFile) : Except String CatalogState := do
  let databases ← loadKeyed serde.database file.databases
  let users ← loadKeyed serde.user file.users
  let nodes ← loadKeyed serde.node file.nodes
  let relations ← loadKeyed serde.relation file.relations
  let functions ← loadKeyed serde.function file.functions
  let aggregates ← loadKeyed serde.aggregate file.aggregates
  let collations ← loadKeyed serde.collation file.collations
  let conversions ← loadKeyed serde.conversion file.conversions
  let config ← file.metadata["config"]?.mapM serde.config.decode
  let catalogueVersion := (file.metadata["catalogue_version"]?.bind parseU64).getD 0
  return { databases, users, nodes, relations, aggregates, collations, conversions, functions
           config, catalogueVersion, storagePolicies := ∅ }

end SqliteCatalogStore

namespace JsonCatalogStore

/-- Load a catalogue from a JSON file, given its content when it exists. -/
def load (path : String) (content : Option String) : Except String CatalogState :=
  match content with
  | none => .error s!"reading catalogue at {path}"
  | some raw =>
    match serde.state.decode raw with
    | .ok state => .ok state
    | .error _ => .error s!"parsing JSON catalogue at {path}"

/-- The content of the JSON file after a catalogue is saved. -/
def saveState (state : CatalogState) : Except String String := serde.state.encode state

end JsonCatalogStore

/-- The SQLite file after the catalogue of a JSON file is written to it. -/
def migrateJsonToSqlite (jsonPath sqlitePath : String) (content : Option String)
    (file : CatalogFile) : Except String CatalogFile := do
  if !isSqlitePath sqlitePath then
    throw s!"destination must have a .db / .sqlite / .sqlite3 extension, got {sqlitePath}"
  let state ← JsonCatalogStore.load serde jsonPath content
  SqliteCatalogStore.saveState serde file state

end

/-! ### Tables -/

section

variable {α : Type} {codec : Codec α} {map : KeyMap α}

/-- Every entry of a map is read back as it was written. -/
def Codec.RoundTripsOn (codec : Codec α) (map : KeyMap α) : Prop :=
  ∀ (key : String) (value : α), map[key]? = some value → codec.RoundTrips value

/-- The entries of a part of a map are written one after another. -/
theorem mapM_encode (hcodec : codec.RoundTripsOn map) (entries : List (String × α))
    (hentries : ∀ entry ∈ entries, map[entry.1]? = some entry.2) :
  ∃ rows, entries.mapM (fun entry => do
      let text ← codec.encode entry.2
      return (entry.1, text)) = .ok rows
    ∧ rows.map Prod.fst = entries.map Prod.fst
    ∧ ∀ row ∈ rows, ∃ value, map[row.1]? = some value ∧ codec.decode row.2 = .ok value
  := by
  induction entries with
  | nil => exact ⟨[], rfl, rfl, by simp⟩
  | cons entry entries ih =>
      have hentry := hentries entry List.mem_cons_self
      obtain ⟨rows, hrows, hkeys, hdecode⟩ :=
        ih (fun e he => hentries e (List.mem_cons_of_mem _ he))
      obtain ⟨text, hencode, htext⟩ := hcodec entry.1 entry.2 hentry
      refine ⟨(entry.1, text) :: rows, ?_, ?_, ?_⟩
      · rw [List.mapM_cons, hencode]
        simp only [bind_assoc, hrows]
        rfl
      · simp [hkeys]
      · intro row hrow
        obtain rfl | hrow := List.mem_cons.mp hrow
        · exact ⟨entry.2, hentry, htext⟩
        · exact hdecode row hrow

/-- A map is written as rows with its keys, which are read as its entries. -/
theorem encodeMap_ok (hcodec : codec.RoundTripsOn map) :
  ∃ rows, encodeMap codec map = .ok rows
    ∧ rows.map Prod.fst = map.keys
    ∧ ∀ row ∈ rows, ∃ value, map[row.1]? = some value ∧ codec.decode row.2 = .ok value
  := by
  have hentries : ∀ entry ∈ map.toList, map[entry.1]? = some entry.2 := by
    intro entry hentry
    exact Std.ExtTreeMap.mem_toList_iff_getElem?_eq_some.mp hentry
  obtain ⟨rows, hrows, hkeys, hdecode⟩ := mapM_encode hcodec map.toList hentries
  refine ⟨rows, hrows, ?_, hdecode⟩
  rw [hkeys, Std.ExtTreeMap.map_fst_toList_eq_keys]

/-- What is in a table after rows with distinct keys are inserted or updated. -/
theorem get_upserted (rows : List (String × String)) (hrows : (rows.map Prod.fst).Nodup)
    (table : KeyMap String) (key text : String) :
  (rows.foldl (fun table row => table.insert row.1 row.2) table)[key]? = some text
    ↔ (key, text) ∈ rows ∨ key ∉ rows.map Prod.fst ∧ table[key]? = some text
  := by
  induction rows generalizing table with
  | nil => simp
  | cons row rows ih =>
      rw [List.map_cons, List.nodup_cons] at hrows
      rw [List.foldl_cons, ih hrows.2, KeyMap.get_insert]
      by_cases hkey : row.1 = key
      · subst hkey
        have hnot : ∀ text, (row.1, text) ∉ rows := by
          intro text htext
          exact hrows.1 (List.mem_map.mpr ⟨_, htext, rfl⟩)
        simp only [if_true, Option.some.injEq, hnot, hrows.1, not_false_eq_true, true_and, false_or,
          List.mem_cons, List.map_cons, not_true, false_and, or_false]
        constructor
        · rintro rfl
          rfl
        · intro htext
          exact (Prod.ext_iff.mp htext).2.symm
      · have hrow : (key, text) ≠ row := by
          rintro rfl
          exact hkey rfl
        simp [hkey, hrow, Ne.symm hkey]

/-- A replaced table has the rows it was given and no others, whatever it had. -/
theorem get_replaceKeyed {rows : List (String × String)} (hrows : (rows.map Prod.fst).Nodup)
    (table : KeyMap String) (key text : String) :
  (replaceKeyed table rows)[key]? = some text ↔ (key, text) ∈ rows
  := by
  simp only [replaceKeyed]
  split
  · rename_i hempty
    have hnil : rows = [] := by
      cases rows with
      | nil => rfl
      | cons row rows => simp at hempty
    simp [hnil]
  · rw [Std.ExtTreeMap.getElem?_filter', Option.filter_eq_some_iff, get_upserted rows hrows,
      Std.ExtTreeSet.contains_ofList]
    constructor
    · rintro ⟨hrow | ⟨hnot, -⟩, hkey⟩
      · exact hrow
      · exact absurd (by simpa using hkey) hnot
    · intro hrow
      refine ⟨.inl hrow, ?_⟩
      simpa using ⟨text, hrow⟩

/-- Rows that are read as entries of a map build it up. -/
theorem foldlM_loadRow (rows : List (String × String)) (out : KeyMap α)
    (hdecode : ∀ row ∈ rows, ∃ value, map[row.1]? = some value ∧ codec.decode row.2 = .ok value) :
  ∃ out', rows.foldlM (loadRow codec) out = .ok out'
    ∧ ∀ key : String, out'[key]? = if key ∈ rows.map Prod.fst then map[key]? else out[key]?
  := by
  induction rows generalizing out with
  | nil => exact ⟨out, rfl, by simp⟩
  | cons row rows ih =>
      obtain ⟨value, hvalue, hrow⟩ := hdecode row List.mem_cons_self
      obtain ⟨out', hout', hget⟩ :=
        ih (out.insert row.1 value) (fun r hr => hdecode r (List.mem_cons_of_mem _ hr))
      refine ⟨out', ?_, ?_⟩
      · rw [List.foldlM_cons, loadRow, hrow]
        exact hout'
      · intro key
        rw [hget, KeyMap.get_insert, List.map_cons]
        by_cases hkey : row.1 = key
        · subst hkey
          simp [hvalue]
        · have hne : key ≠ row.1 := fun h => hkey h.symm
          simp only [hkey, if_false, List.mem_cons, hne, false_or]

/-- A table whose rows are read as the entries of a map, and that has a row for every entry, is
loaded as this map. -/
theorem loadKeyed_ok {table : KeyMap String}
    (hdecode : ∀ (key text : String), table[key]? = some text →
      ∃ value, map[key]? = some value ∧ codec.decode text = .ok value)
    (hkeys : ∀ (key : String) (value : α), map[key]? = some value → key ∈ table.keys) :
  loadKeyed codec table = .ok map
  := by
  have hrows : ∀ row ∈ table.toList,
      ∃ value, map[row.1]? = some value ∧ codec.decode row.2 = .ok value := by
    intro row hrow
    exact hdecode row.1 row.2 (Std.ExtTreeMap.mem_toList_iff_getElem?_eq_some.mp hrow)
  obtain ⟨out, hout, hget⟩ := foldlM_loadRow table.toList ∅ hrows
  rw [loadKeyed, hout]
  congr 1
  apply Std.ExtTreeMap.ext_getElem?
  intro key
  rw [hget, Std.ExtTreeMap.map_fst_toList_eq_keys]
  split
  · rfl
  · rename_i hnot
    cases hvalue : map[key]? with
    | none => rfl
    | some value => exact absurd (hkeys key value hvalue) hnot

/-- A map that is saved in a table, whatever the table had, is loaded from it. -/
theorem table_roundTrip (hcodec : codec.RoundTripsOn map) (table : KeyMap String) :
  ∃ rows, encodeMap codec map = .ok rows
    ∧ loadKeyed codec (replaceKeyed table rows) = .ok map
  := by
  obtain ⟨rows, hrows, hkeys, hdecode⟩ := encodeMap_ok hcodec
  have hnodup : (rows.map Prod.fst).Nodup := by
    rw [hkeys]
    exact Std.ExtTreeMap.nodup_keys
  refine ⟨rows, hrows, ?_⟩
  apply loadKeyed_ok
  · intro key text htext
    exact hdecode (key, text) ((get_replaceKeyed hnodup table key text).mp htext)
  · intro key value hvalue
    have hkey : key ∈ rows.map Prod.fst := by
      rw [hkeys, Std.ExtTreeMap.mem_keys, Std.ExtTreeMap.mem_iff_isSome_getElem?, hvalue]
      rfl
    obtain ⟨⟨_, text⟩, hrow, rfl⟩ := List.mem_map.mp hkey
    rw [Std.ExtTreeMap.mem_keys, Std.ExtTreeMap.mem_iff_isSome_getElem?,
      (get_replaceKeyed hnodup table _ text).mpr hrow]
    rfl

/-- The version is read back as it was written. -/
theorem parseU64_toString {n : Nat} (hn : n ≤ u64Max) :
  parseU64 (toString n) = some n
  := by
  have hdigits : (toString n).toList = Nat.toDigits 10 n := by
    rw [Nat.toString_eq_ofList_toDigits]
    simp
  have hall : (Nat.toDigits 10 n).all Char.isDigit = true := by
    rw [List.all_eq_true]
    intro c hc
    exact Nat.isDigit_of_mem_toDigits (by decide) (by decide) hc
  simp only [parseU64, hdigits]
  split
  · rename_i digits hsign
    rw [hsign] at hall
    simp at hall
  · rw [Nat.ofDigitChars_ten_toDigits, if_pos ⟨Nat.toDigits_ne_nil, hall, hn⟩]

end

/-! ### Catalogues -/

/-- The entities of a catalogue, and the catalogue itself, are read back as they were written. -/
structure Serde.RoundTrips (serde : Serde) (state : CatalogState) : Prop where
  databases : serde.database.RoundTripsOn state.databases
  users : serde.user.RoundTripsOn state.users
  nodes : serde.node.RoundTripsOn state.nodes
  relations : serde.relation.RoundTripsOn state.relations
  functions : serde.function.RoundTripsOn state.functions
  aggregates : serde.aggregate.RoundTripsOn state.aggregates
  collations : serde.collation.RoundTripsOn state.collations
  conversions : serde.conversion.RoundTripsOn state.conversions
  config : ∀ config, state.config = some config → serde.config.RoundTrips config
  state : serde.state.RoundTrips state

section

variable {serde : Serde} {state : CatalogState}

/-- The configuration is read back from the rows of `meta`. -/
theorem config_roundTrip (hserde : serde.RoundTrips state) (metadata : KeyMap String)
    (version : String) :
  ∃ config, state.config.mapM serde.config.encode = .ok config
    ∧ ((match config with
        | some raw => metadata.insert "config" raw
        | none => metadata.erase "config").insert "catalogue_version" version)["config"]?.mapM
        serde.config.decode = .ok state.config
  := by
  cases hconfig : state.config with
  | none =>
      refine ⟨none, rfl, ?_⟩
      simp only [KeyMap.get_insert, KeyMap.get_erase]
      rfl
  | some config =>
      obtain ⟨raw, hraw, hdecode⟩ := hserde.config config hconfig
      refine ⟨some raw, ?_, ?_⟩
      · rw [Option.mapM_some, hraw]
        rfl
      · simp only [KeyMap.get_insert]
        rw [if_neg (by decide), if_pos trivial, Option.mapM_some, hdecode]
        rfl

/-- A catalogue that is saved in a SQLite file, whatever the file had, is loaded from it without
its storage policies. -/
theorem load_saveState (hserde : serde.RoundTrips state)
    (hversion : state.catalogueVersion ≤ u64Max) (file : CatalogFile) :
  SqliteCatalogStore.saveState serde file state >>= SqliteCatalogStore.load serde
    = .ok { state with storagePolicies := ∅ }
  := by
  obtain ⟨databases, hdatabases, hdatabases'⟩ := table_roundTrip hserde.databases file.databases
  obtain ⟨users, husers, husers'⟩ := table_roundTrip hserde.users file.users
  obtain ⟨nodes, hnodes, hnodes'⟩ := table_roundTrip hserde.nodes file.nodes
  obtain ⟨relations, hrelations, hrelations'⟩ := table_roundTrip hserde.relations file.relations
  obtain ⟨functions, hfunctions, hfunctions'⟩ := table_roundTrip hserde.functions file.functions
  obtain ⟨aggregates, haggregates, haggregates'⟩ :=
    table_roundTrip hserde.aggregates file.aggregates
  obtain ⟨collations, hcollations, hcollations'⟩ :=
    table_roundTrip hserde.collations file.collations
  obtain ⟨conversions, hconversions, hconversions'⟩ :=
    table_roundTrip hserde.conversions file.conversions
  obtain ⟨config, hconfig, hconfig'⟩ :=
    config_roundTrip hserde file.metadata (toString state.catalogueVersion)
  have hsaved : SerializableState.tryFrom serde state = .ok
      { databases, users, nodes, relations, functions, aggregates, collations, conversions, config
        catalogueVersion := state.catalogueVersion } := by
    simp only [SerializableState.tryFrom, hdatabases, husers, hnodes, hrelations, hfunctions,
      haggregates, hcollations, hconversions, hconfig]
    rfl
  rw [SqliteCatalogStore.saveState, hsaved]
  change SqliteCatalogStore.load serde (SqliteCatalogStore.saveBlocking file _) = _
  simp only [SqliteCatalogStore.load, SqliteCatalogStore.saveBlocking, hdatabases', husers',
    hnodes', hrelations', hfunctions', haggregates', hcollations', hconversions', hconfig']
  simp only [KeyMap.get_insert, if_true, Option.bind_some, parseU64_toString hversion,
    Option.getD_some]
  rfl

/-- Saving a catalogue and loading it again gives the catalogue: from a SQLite file of any
content, from a JSON file, and from a SQLite file to which a JSON file was migrated. -/
structure RoundTrip (serde : Serde) (state : CatalogState) (file : CatalogFile) : Prop where
  sqlite : SqliteCatalogStore.saveState serde file state >>= SqliteCatalogStore.load serde
    = .ok state
  json : ∀ path, (do
      let raw ← JsonCatalogStore.saveState serde state
      JsonCatalogStore.load serde path (some raw)) = .ok state
  migrated : ∀ jsonPath sqlitePath content, isSqlitePath sqlitePath = true →
    JsonCatalogStore.load serde jsonPath content = .ok state →
      migrateJsonToSqlite serde jsonPath sqlitePath content file >>= SqliteCatalogStore.load serde
        = JsonCatalogStore.load serde jsonPath content

/-- Saving a catalogue and loading it again gives the catalogue exactly when it has no storage
policies. -/
theorem roundTrip_iff (hserde : serde.RoundTrips state)
    (hversion : state.catalogueVersion ≤ u64Max) (file : CatalogFile) :
  RoundTrip serde state file ↔ state.storagePolicies = ∅
  := by
  have hload := load_saveState hserde hversion file
  constructor
  · intro h
    have hsame := h.sqlite
    rw [hload] at hsame
    injection hsame with hsame
    rw [← hsame]
  · intro hpolicies
    have hsqlite : SqliteCatalogStore.saveState serde file state >>= SqliteCatalogStore.load serde
        = .ok state := by
      rw [hload, ← hpolicies]
    constructor
    · exact hsqlite
    · intro path
      obtain ⟨raw, hraw, hdecode⟩ := hserde.state
      rw [JsonCatalogStore.saveState, hraw]
      change JsonCatalogStore.load serde path (some raw) = .ok state
      simp only [JsonCatalogStore.load, hdecode]
    · intro jsonPath sqlitePath content hpath hcontent
      rw [migrateJsonToSqlite, hpath, hcontent]
      exact hsqlite

end

/-- A codec that writes and reads one value. -/
def Codec.only {α : Type} (value : α) (text : String) : Codec α :=
  { encode := fun _ => .ok text
    decode := fun raw => if raw = text then .ok value else .error "unknown text" }

theorem Codec.only_roundTrips {α : Type} (value : α) (text : String) :
  (Codec.only value text).RoundTrips value
  := ⟨text, rfl, if_pos rfl⟩

/-- A codec of values that do not occur. -/
def Codec.unused {α : Type} : Codec α :=
  { encode := fun _ => .error "unused"
    decode := fun _ => .error "unused" }

/-- A catalogue with one database. -/
def sampleCatalog (policies : KeyMap StoragePolicy) : CatalogState :=
  { databases := (∅ : KeyMap CatalogDatabase).insert "postgres" postgresDatabase
    users := ∅
    nodes := ∅
    relations := ∅
    aggregates := ∅
    collations := ∅
    conversions := ∅
    functions := ∅
    config := none
    catalogueVersion := 0
    storagePolicies := policies }

/-- The text of this catalogue, given that of its storage policies. -/
def sampleText (policies : String) : String :=
  String.intercalate "\n"
    ["\x7b",
     "  \"databases\": \x7b",
     "    \"postgres\": \x7b",
     "      \"name\": \"postgres\",",
     "      \"schemas\": [",
     "        \"public\"",
     "      ],",
     "      \"owner\": \"postgres\",",
     "      \"parameters\": \x7b\x7d",
     "    \x7d",
     "  \x7d,",
     "  \"users\": \x7b\x7d,",
     "  \"nodes\": \x7b\x7d,",
     "  \"relations\": \x7b\x7d,",
     "  \"aggregates\": \x7b\x7d,",
     "  \"collations\": \x7b\x7d,",
     "  \"conversions\": \x7b\x7d,",
     "  \"functions\": \x7b\x7d,",
     "  \"config\": null,",
     "  \"catalogue_version\": 0,",
     "  \"storage_policies\": " ++ policies,
     "\x7d"]

def sampleSerde (state : CatalogState) (text : String) : Serde :=
  { database := Codec.only postgresDatabase
      "\x7b\"name\":\"postgres\",\"schemas\":[\"public\"],\"owner\":\"postgres\",\"parameters\":\x7b\x7d\x7d"
    user := Codec.unused
    node := Codec.unused
    relation := Codec.unused
    function := Codec.unused
    aggregate := Codec.unused
    collation := Codec.unused
    conversion := Codec.unused
    config := Codec.unused
    state := Codec.only state text }

theorem sampleSerde_roundTrips (policies : KeyMap StoragePolicy) (text : String) :
  (sampleSerde (sampleCatalog policies) text).RoundTrips (sampleCatalog policies)
  := by
  constructor
  · intro key database hdatabase
    simp only [sampleCatalog, KeyMap.get_insert] at hdatabase
    split at hdatabase
    · cases hdatabase
      apply Codec.only_roundTrips
    · simp at hdatabase
  case config => nofun
  case state => apply Codec.only_roundTrips
  all_goals
    intro key entity hentity
    simp [sampleCatalog] at hentity

/-- A file with a row of an earlier catalogue. -/
def sampleFile : CatalogFile :=
  { databases := (∅ : KeyMap String).insert "sales" "\x7b\x7d"
    users := ∅
    nodes := ∅
    relations := ∅
    functions := ∅
    aggregates := ∅
    collations := ∅
    conversions := ∅
    metadata := (∅ : KeyMap String).insert "catalogue_version" "7" }

theorem roundTrip_sampleCatalog :
  RoundTrip (sampleSerde (sampleCatalog ∅) (sampleText "\x7b\x7d")) (sampleCatalog ∅) sampleFile
  := (roundTrip_iff (sampleSerde_roundTrips ∅ _) (Nat.zero_le _) sampleFile).mpr rfl

/-- A storage policy, as `set_storage_policy` stores it. -/
def samplePolicies : KeyMap StoragePolicy :=
  (∅ : KeyMap StoragePolicy).insert "postgres.public.t"
    { database := "postgres", schema := "public", tableName := "t", policyType := .managed
      autoSelect := false, reason := "" }

def samplePoliciesText : String :=
  String.intercalate "\n"
    ["\x7b",
     "    \"postgres.public.t\": \x7b",
     "      \"database\": \"postgres\",",
     "      \"schema\": \"public\",",
     "      \"table_name\": \"t\",",
     "      \"policy_type\": \"managed\",",
     "      \"auto_select\": false,",
     "      \"reason\": \"\"",
     "    \x7d",
     "  \x7d"]

/-- A storage policy that is saved is not loaded. -/
theorem load_forgets_storagePolicies :
  ∃ serde state file, Serde.RoundTrips serde state ∧ state.catalogueVersion ≤ u64Max
    ∧ ¬ RoundTrip serde state file
  := by
  refine ⟨_, sampleCatalog samplePolicies, sampleFile, sampleSerde_roundTrips samplePolicies
    (sampleText samplePoliciesText), Nat.zero_le _, ?_⟩
  intro h
  have hsame := h.sqlite
  rw [load_saveState (sampleSerde_roundTrips samplePolicies _) (Nat.zero_le _)] at hsame
  injection hsame with hsame
  have hpolicies := congrArg (fun state => state.storagePolicies.contains "postgres.public.t") hsame
  revert hpolicies
  decide
