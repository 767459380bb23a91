import AnalyticsDB.Control.Edits
import AnalyticsDB.Lib.Dotted
import AnalyticsDB.Lib.Run

/-!
# The namespace of relations

Every relation of the catalogue is stored under the key made of its own database, schema and
name, and its database and schema exist.  The invariant that carries this through the bulk
moves of the renames also says that no name contains a dot, so that a key can be read back.
-/

/-- A name without a dot. -/
def Plain (name : String) : Prop := '.' ∉ name.toList

instance : DecidablePred Plain :=
  fun name => inferInstanceAs (Decidable ('.' ∉ name.toList))

/-- The namespace is coherent: relations are stored under their own names, in schemas that
exist, and databases under their own names. -/
structure CatalogState.Coherent (state : CatalogState) : Prop where
  key_eq : ∀ (key : String) (r : CatalogRelation), state.relations[key]? = some r →
    key = relationKey r.database r.schema r.name
  schema_exists : ∀ (key : String) (r : CatalogRelation), state.relations[key]? = some r →
    ∃ d : CatalogDatabase, state.databases[r.database]? = some d ∧ d.schemas.contains r.schema
      = true
  name_eq : ∀ (name : String) (d : CatalogDatabase), state.databases[name]? = some d → d.name = name

/-- A database entry stored under its own name, with no dot in its names. -/
structure DatabaseOk (name : String) (d : CatalogDatabase) : Prop where
  name_eq : d.name = name
  plain : Plain name
  schema_plain : ∀ schema, d.schemas.contains schema = true → Plain schema

/-- A relation stored under its own names, in a schema of the databases, with no dot in its
name. -/
structure RelationOk (databases : KeyMap CatalogDatabase) (key : String) (r : CatalogRelation) :
    Prop where
  key_eq : key = relationKey r.database r.schema r.name
  schema_exists : ∃ d : CatalogDatabase, databases[r.database]? = some d
    ∧ d.schemas.contains r.schema = true
  plain : Plain r.name

/-- A coherent namespace none of whose names contains a dot. -/
structure CatalogState.Namespaced (state : CatalogState) : Prop where
  databases_ok : ∀ (name : String) (d : CatalogDatabase), state.databases[name]? = some d →
    DatabaseOk name d
  relations_ok : ∀ (key : String) (r : CatalogRelation), state.relations[key]? = some r →
    RelationOk state.databases key r

theorem CatalogState.Namespaced.coherent {state : CatalogState} (h : state.Namespaced) :
  state.Coherent
  := by
  constructor
  · intro key r hr
    exact (h.relations_ok key r hr).key_eq
  · intro key r hr
    exact (h.relations_ok key r hr).schema_exists
  · intro name d hd
    exact (h.databases_ok name d hd).name_eq

/-! ### Dotted keys -/

/-- An identifier has no dot. -/
theorem plain_of_validateIdentifier {name : String} (h : validateIdentifier name = .ok ()) :
  Plain name
  := by
  intro hdot
  have hall := List.all_eq_true.mp (validateIdentifier_ok h).2 _ hdot
  revert hall
  decide

theorem relationKey_toList (database schema table : String) :
  (relationKey database schema table).toList
    = database.toList ++ '.' :: (schema.toList ++ '.' :: table.toList)
  := by
  simp [relationKey, String.toList_append]

/-- A key determines the parts it is made of when those on one side are plain. -/
theorem relationKey_inj {d s t d' s' t' : String} (hd : Plain d') (hs : Plain s') (ht : Plain t')
    (h : relationKey d s t = relationKey d' s' t') :
  d = d' ∧ s = s' ∧ t = t'
  := by
  have hlist := congrArg String.toList h
  rw [relationKey_toList, relationKey_toList] at hlist
  obtain ⟨h₁, h₂, h₃⟩ := Dotted.join_three_inj hd hs ht hlist
  exact ⟨String.toList_inj.mp h₁, String.toList_inj.mp h₂, String.toList_inj.mp h₃⟩

/-- The key made of three parts without dots has two. -/
theorem count_relationKey {database schema name : String} (hdatabase : Plain database)
    (hschema : Plain schema) (hname : Plain name) :
  (relationKey database schema name).toList.count '.' = 2
  := by
  rw [relationKey_toList]
  simp only [List.count_append, List.count_cons_self, List.count_eq_zero_of_not_mem hdatabase,
    List.count_eq_zero_of_not_mem hschema, List.count_eq_zero_of_not_mem hname]

/-- The key under which a relation is stored. -/
def CatalogRelation.key (r : CatalogRelation) : String := relationKey r.database r.schema r.name

/-- The keys that start with the name of a database are those of its relations. -/
theorem startsWith_databaseStart {d name : String} (s t : String) (hd : Plain d)
    (hname : Plain name) :
  startsWith (relationKey d s t) (databaseStart name) = true ↔ name = d
  := by
  rw [startsWith, relationKey_toList, databaseStart, String.toList_append]
  exact (Dotted.isPrefixOf_join_iff hd hname).trans String.toList_inj

theorem schemaStart_toList (database schema : String) :
  (schemaStart database schema).toList
    = database.toList ++ '.' :: (schema.toList ++ ['.'])
  := by
  simp [schemaStart, String.toList_append]

/-- The key of a relation starts with the name of its schema. -/
theorem relationKey_startsWith_schemaStart (d s t : String) :
  startsWith (relationKey d s t) (schemaStart d s) = true
  := by
  rw [startsWith, relationKey_toList, schemaStart_toList]
  apply List.isPrefixOf_iff_prefix.mpr
  use t.toList
  simp

/-- The keys that start with the name of a schema are those of its relations. -/
theorem startsWith_schemaStart {d s databaseName name : String} (t : String) (hd : Plain d)
    (hs : Plain s) (hdatabase : Plain databaseName) (hname : Plain name) :
  startsWith (relationKey d s t) (schemaStart databaseName name) = true
    ↔ databaseName = d ∧ name = s
  := by
  constructor
  · intro h
    rw [startsWith, relationKey_toList, schemaStart_toList] at h
    obtain ⟨rest, hrest⟩ := List.isPrefixOf_iff_prefix.mp h
    rw [List.append_assoc, List.cons_append, List.append_assoc, List.singleton_append] at hrest
    obtain ⟨hfirst, hsecond⟩ := Dotted.append_cons_inj hdatabase hd hrest
    obtain ⟨hsecond, -⟩ := Dotted.append_cons_inj hname hs hsecond
    exact ⟨String.toList_inj.mp hfirst, String.toList_inj.mp hsecond⟩
  · rintro ⟨rfl, rfl⟩
    apply relationKey_startsWith_schemaStart

/-- A key made of plain parts starts with the name of a schema only when the name of its database
is plain too. -/
theorem plain_of_startsWith_schemaStart {d s t databaseName name : String} (hd : Plain d)
    (hs : Plain s) (ht : Plain t)
    (h : startsWith (relationKey d s t) (schemaStart databaseName name) = true) :
  Plain databaseName
  := by
  rw [startsWith] at h
  have hcount := List.Sublist.count_le '.' (List.isPrefixOf_iff_prefix.mp h).sublist
  rw [count_relationKey hd hs ht, schemaStart_toList, List.count_append, List.count_cons_self,
    List.count_append] at hcount
  have hdot : ['.'].count '.' = 1 := rfl
  rw [hdot] at hcount
  apply List.count_eq_zero.mp
  omega

/-! ### Bulk moves -/

/-- An entry of the relations after some of those whose keys start with `start` were moved:
it was there before and, if its key starts with `start`, is still to be moved, or it was
moved. -/
def MovedEntry (start : String) (f : CatalogRelation → CatalogRelation)
    (newKey : CatalogRelation → String) (relations : KeyMap CatalogRelation)
    (pending : List String) (key : String) (r : CatalogRelation) : Prop :=
  (relations[key]? = some r ∧ (startsWith key start = true → key ∈ pending))
    ∨ ∃ (key₀ : String) (r₀ : CatalogRelation), relations[key₀]? = some r₀ ∧ startsWith key₀ start
      = true
      ∧ key = newKey (f r₀) ∧ r = f r₀

section

variable {start : String} {f : CatalogRelation → CatalogRelation}
  {newKey : CatalogRelation → String} {relations : KeyMap CatalogRelation}

theorem moveRelation_entry {pending : List String} {moved : KeyMap CatalogRelation}
    {first : String} (hfirst : startsWith first start = true)
    (hnewKey : ∀ (key : String) (r : CatalogRelation), relations[key]? = some r →
      startsWith key start = true →
      startsWith (newKey (f r)) start = false)
    (hmoved : ∀ (key : String) (r : CatalogRelation), moved[key]? = some r →
      MovedEntry start f newKey relations (first :: pending) key r) :
  ∀ (key : String) (r : CatalogRelation), (moveRelation f newKey moved first)[key]? = some r →
    MovedEntry start f newKey relations pending key r
  := by
  intro key r hentry
  -- an entry other than the first pending one stays as it was
  have hother : first ≠ key → moved[key]? = some r →
      MovedEntry start f newKey relations pending key r := by
    intro hne hkey
    obtain ⟨hkept, hpending⟩ | hdone := hmoved key r hkey
    · left
      constructor
      · exact hkept
      · intro hstarts
        obtain rfl | hrest := List.mem_cons.mp (hpending hstarts)
        · exact absurd rfl hne
        · exact hrest
    · right
      exact hdone
  unfold moveRelation at hentry
  split at hentry
  · rename_i hnone
    apply hother _ hentry
    rintro rfl
    rw [hnone] at hentry
    cases hentry
  · rename_i r₁ hsome
    have horiginal : relations[first]? = some r₁ := by
      obtain ⟨hkept, -⟩ | ⟨key₀, r₀, h₀, hstarts₀, hkey₀, -⟩ := hmoved first r₁ hsome
      · exact hkept
      · rw [hkey₀, hnewKey key₀ r₀ h₀ hstarts₀] at hfirst
        cases hfirst
    by_cases hkey : newKey (f r₁) = key
    · right
      use first, r₁, horiginal, hfirst, hkey.symm
      rw [KeyMap.get_insert, if_pos hkey] at hentry
      exact (Option.some.inj hentry).symm
    · by_cases hne : first = key
      · subst hne
        rw [KeyMap.get_insert, if_neg hkey, KeyMap.get_erase, if_pos rfl] at hentry
        cases hentry
      · apply hother hne
        rw [KeyMap.get_insert, if_neg hkey, KeyMap.get_erase, if_neg hne] at hentry
        exact hentry

theorem foldl_moveRelation_entry (pending : List String)
    (hpending : ∀ key ∈ pending, startsWith key start = true)
    (hnewKey : ∀ (key : String) (r : CatalogRelation), relations[key]? = some r →
      startsWith key start = true →
      startsWith (newKey (f r)) start = false)
    (moved : KeyMap CatalogRelation)
    (hmoved : ∀ (key : String) (r : CatalogRelation), moved[key]? = some r →
      MovedEntry start f newKey relations pending key r) :
  ∀ (key : String) (r : CatalogRelation), (pending.foldl (moveRelation f newKey) moved)[key]?
    = some r →
    MovedEntry start f newKey relations [] key r
  := by
  induction pending generalizing moved with
  | nil => exact hmoved
  | cons first pending ih =>
      apply ih
      · intro key hkey
        apply hpending key (List.mem_cons_of_mem first hkey)
      · apply moveRelation_entry (hpending first List.mem_cons_self) hnewKey hmoved

/-- After a bulk move an entry either was there before, under a key that does not start with
`start`, or is a moved one, provided that no new key starts with `start`. -/
theorem moveRelations_entry
    (hnewKey : ∀ (key : String) (r : CatalogRelation), relations[key]? = some r →
      startsWith key start = true →
      startsWith (newKey (f r)) start = false)
    {key : String} {r : CatalogRelation}
    (h : (moveRelations start f newKey relations)[key]? = some r) :
  (relations[key]? = some r ∧ startsWith key start = false)
    ∨ ∃ (key₀ : String) (r₀ : CatalogRelation), relations[key₀]? = some r₀ ∧ startsWith key₀ start
      = true
      ∧ key = newKey (f r₀) ∧ r = f r₀
  := by
  have hpending : ∀ key ∈ relations.keys.filter (startsWith · start),
      startsWith key start = true := by
    intro key hkey
    exact (List.mem_filter.mp hkey).2
  have hinitial : ∀ (key : String) (r : CatalogRelation), relations[key]? = some r →
      MovedEntry start f newKey relations (relations.keys.filter (startsWith · start)) key r := by
    intro key r hkey
    left
    constructor
    · exact hkey
    · intro hstarts
      apply List.mem_filter.mpr
      constructor
      · apply Std.ExtTreeMap.mem_keys.mpr
        apply Std.ExtTreeMap.mem_iff_isSome_getElem?.mpr
        rw [hkey]
        rfl
      · exact hstarts
  obtain ⟨hkept, hnot⟩ | hdone :=
    foldl_moveRelation_entry _ hpending hnewKey relations hinitial key r h
  · left
    constructor
    · exact hkept
    · apply Bool.eq_false_iff.mpr
      intro hstarts
      cases hnot hstarts
  · right
    exact hdone

/-- The new keys are free, do not start with `start`, and are distinct. -/
structure FreshKeys (start : String) (f : CatalogRelation → CatalogRelation)
    (newKey : CatalogRelation → String) (relations : KeyMap CatalogRelation) : Prop where
  start_ne : ∀ (key : String) (r : CatalogRelation), relations[key]? = some r →
    startsWith key start = true → startsWith (newKey (f r)) start = false
  free : ∀ (key : String) (r : CatalogRelation), relations[key]? = some r →
    startsWith key start = true → relations[newKey (f r)]? = none
  inj : ∀ (key key' : String) (r r' : CatalogRelation), relations[key]? = some r →
    relations[key']? = some r' → startsWith key start = true → startsWith key' start = true →
      newKey (f r) = newKey (f r') → key = key'

/-- The entry of a relation after those whose keys start with `start` and are not pending were
moved. -/
def EntryMoved (start : String) (f : CatalogRelation → CatalogRelation)
    (newKey : CatalogRelation → String) (pending : List String) (moved : KeyMap CatalogRelation)
    (key : String) (r : CatalogRelation) : Prop :=
  if startsWith key start = true ∧ key ∉ pending then moved[newKey (f r)]? = some (f r)
  else moved[key]? = some r

/-- Moving the first pending relation leaves the others where they are. -/
theorem moveRelation_entryMoved (hfresh : FreshKeys start f newKey relations)
    {pending : List String} {moved : KeyMap CatalogRelation} {first : String}
    {r₁ : CatalogRelation} (hfound : relations[first]? = some r₁)
    (hfirst : startsWith first start = true) (hnodup : first ∉ pending)
    (hmoved : ∀ (key : String) (r : CatalogRelation), relations[key]? = some r →
      EntryMoved start f newKey (first :: pending) moved key r) :
  ∀ (key : String) (r : CatalogRelation), relations[key]? = some r →
    EntryMoved start f newKey pending (moveRelation f newKey moved first) key r
  := by
  have hhere : moved[first]? = some r₁ := by
    simpa [EntryMoved] using hmoved first r₁ hfound
  intro key r hr
  have hkey := hmoved key r hr
  unfold EntryMoved at hkey ⊢
  simp only [moveRelation, hhere]
  by_cases hkeyFirst : key = first
  · subst hkeyFirst
    rw [hr] at hfound
    cases hfound
    rw [if_pos ⟨hfirst, hnodup⟩, KeyMap.get_insert, if_pos rfl]
  · by_cases hdone : startsWith key start = true ∧ key ∉ pending
    · rw [if_pos ⟨hdone.1, by simp [hkeyFirst, hdone.2]⟩] at hkey
      rw [if_pos hdone, KeyMap.get_insert, if_neg, KeyMap.get_erase, if_neg, hkey]
      · intro h
        rw [h, hfresh.start_ne key r hr hdone.1] at hfirst
        cases hfirst
      · intro h
        exact hkeyFirst (hfresh.inj first key r₁ r hfound hr hfirst hdone.1 h).symm
    · rw [if_neg] at hkey
      · rw [if_neg hdone, KeyMap.get_insert, if_neg, KeyMap.get_erase, if_neg (Ne.symm hkeyFirst),
          hkey]
        intro h
        have hfree := hfresh.free first r₁ hfound hfirst
        rw [h, hr] at hfree
        cases hfree
      · intro h
        exact hdone ⟨h.1, fun hmem => h.2 (List.mem_cons_of_mem _ hmem)⟩

theorem foldl_moveRelation_entryMoved (hfresh : FreshKeys start f newKey relations)
    (pending : List String) (hnodup : pending.Nodup)
    (hpending : ∀ key ∈ pending, startsWith key start = true
      ∧ ∃ r : CatalogRelation, relations[key]? = some r)
    (moved : KeyMap CatalogRelation)
    (hmoved : ∀ (key : String) (r : CatalogRelation), relations[key]? = some r →
      EntryMoved start f newKey pending moved key r) :
  ∀ (key : String) (r : CatalogRelation), relations[key]? = some r →
    EntryMoved start f newKey [] (pending.foldl (moveRelation f newKey) moved) key r
  := by
  induction pending generalizing moved with
  | nil => exact hmoved
  | cons first pending ih =>
      rw [List.forall_mem_cons] at hpending
      rw [List.nodup_cons] at hnodup
      obtain ⟨⟨hfirst, r₁, hfound⟩, hpending⟩ := hpending
      apply ih hnodup.2 hpending
      apply moveRelation_entryMoved hfresh hfound hfirst hnodup.1 hmoved

/-- After a bulk move to fresh keys every relation is there: moved when its key started with
`start`, and as it was otherwise. -/
theorem moveRelations_entryMoved (hfresh : FreshKeys start f newKey relations)
    {key : String} {r : CatalogRelation} (hr : relations[key]? = some r) :
  if startsWith key start = true then
    (moveRelations start f newKey relations)[newKey (f r)]? = some (f r)
  else
    (moveRelations start f newKey relations)[key]? = some r
  := by
  have hentry := foldl_moveRelation_entryMoved hfresh
    (relations.keys.filter (startsWith · start)) ?_ ?_ relations ?_ key r hr
  · simpa [EntryMoved, moveRelations] using hentry
  · apply List.Nodup.filter
    apply Std.ExtTreeMap.nodup_keys
  · intro key hkey
    obtain ⟨hmem, hstarts⟩ := List.mem_filter.mp hkey
    refine ⟨hstarts, ?_⟩
    apply Option.isSome_iff_exists.mp
    apply Std.ExtTreeMap.mem_iff_isSome_getElem?.mp
    apply Std.ExtTreeMap.mem_keys.mp hmem
  · intro key r hr
    unfold EntryMoved
    rw [if_neg, hr]
    rintro ⟨hstarts, hnot⟩
    apply hnot
    apply List.mem_filter.mpr
    refine ⟨?_, hstarts⟩
    apply Std.ExtTreeMap.mem_keys.mpr
    apply Std.ExtTreeMap.mem_iff_isSome_getElem?.mpr
    rw [hr]
    rfl

end

/-! ### The edits keep the invariant -/

section

variable {state : CatalogState}

/-- The names a relation is stored under are plain. -/
theorem CatalogState.Namespaced.plain_of_relation (h : state.Namespaced) {key : String}
    {r : CatalogRelation} (hr : state.relations[key]? = some r) :
  Plain r.database ∧ Plain r.schema ∧ Plain r.name
  := by
  obtain ⟨-, ⟨d, hd, hschema⟩, hname⟩ := h.relations_ok key r hr
  have hok := h.databases_ok r.database d hd
  exact ⟨hok.plain, hok.schema_plain r.schema hschema, hname⟩

/-- The key of a relation that exists is made of its names. -/
theorem CatalogState.Namespaced.key_eq (h : state.Namespaced) {key : String}
    {r : CatalogRelation} (hr : state.relations[key]? = some r) :
  key = r.key
  := (h.relations_ok key r hr).key_eq

/-- Two relations with the same names are one. -/
theorem CatalogState.Namespaced.eq_of_names (h : state.Namespaced) {key key' : String}
    {r r' : CatalogRelation} (hr : state.relations[key]? = some r)
    (hr' : state.relations[key']? = some r')
    (hnames : r.database = r'.database ∧ r.schema = r'.schema ∧ r.name = r'.name) :
  key = key'
  := by
  obtain ⟨hdatabase, hschema, hname⟩ := hnames
  rw [h.key_eq hr, h.key_eq hr', CatalogRelation.key, CatalogRelation.key, hdatabase, hschema,
    hname]

/-- No relation is in a database that does not exist. -/
theorem CatalogState.Namespaced.database_ne (h : state.Namespaced) {newName : String}
    (hnew : state.databases.contains newName = false) {key : String} {r : CatalogRelation}
    (hr : state.relations[key]? = some r) :
  r.database ≠ newName
  := by
  rintro rfl
  obtain ⟨d, hd, -⟩ := (h.relations_ok key r hr).schema_exists
  rw [KeyMap.get_eq_none _ hnew] at hd
  cases hd

/-- No relation is in a schema that does not exist. -/
theorem CatalogState.Namespaced.schema_ne (h : state.Namespaced) {databaseName newName : String}
    {database : CatalogDatabase} (hdatabase : state.databases[databaseName]? = some database)
    (hnew : database.schemas.contains newName = false) {key : String} {r : CatalogRelation}
    (hr : state.relations[key]? = some r) (hd : r.database = databaseName) :
  r.schema ≠ newName
  := by
  rintro rfl
  obtain ⟨d, hfound, hcontains⟩ := (h.relations_ok key r hr).schema_exists
  rw [hd, hdatabase] at hfound
  cases hfound
  rw [hnew] at hcontains
  cases hcontains

/-- The relations whose keys start with the name of a database are those in it. -/
theorem CatalogState.Namespaced.inDatabase_iff (h : state.Namespaced) {name : String}
    (hname : Plain name) {key : String} {r : CatalogRelation}
    (hr : state.relations[key]? = some r) :
  startsWith key (databaseStart name) = true ↔ r.database = name
  := by
  rw [h.key_eq hr, @eq_comm _ r.database]
  exact startsWith_databaseStart _ _ (h.plain_of_relation hr).1 hname

/-- The relations whose keys start with the name of a schema are those in it. -/
theorem CatalogState.Namespaced.inSchema_iff (h : state.Namespaced) {databaseName name : String}
    (hname : Plain name) {key : String} {r : CatalogRelation}
    (hr : state.relations[key]? = some r) :
  startsWith key (schemaStart databaseName name) = true
    ↔ r.database = databaseName ∧ r.schema = name
  := by
  obtain ⟨hd, hs, ht⟩ := h.plain_of_relation hr
  rw [h.key_eq hr]
  constructor
  · intro hstart
    have hplain := plain_of_startsWith_schemaStart hd hs ht hstart
    obtain ⟨hdatabase, hschema⟩ := (startsWith_schemaStart _ hd hs hplain hname).mp hstart
    exact ⟨hdatabase.symm, hschema.symm⟩
  · rintro ⟨rfl, rfl⟩
    apply relationKey_startsWith_schemaStart

/-- The relations of a database go to fresh keys when it gets a free name. -/
theorem CatalogState.Namespaced.freshKeys_database (h : state.Namespaced) {name newName : String}
    {database : CatalogDatabase} (hname : Plain name) (hnewName : Plain newName)
    (hold : state.databases[name]? = some database)
    (hnew : state.databases.contains newName = false) :
  FreshKeys (databaseStart name) (fun r => { r with database := newName })
    (fun r => relationKey r.database r.schema r.name) state.relations
  := by
  constructor
  · intro key r hr _
    apply Bool.eq_false_iff.mpr
    intro hstart
    have heq := (startsWith_databaseStart _ _ hnewName hname).mp hstart
    have hnone := KeyMap.get_eq_none _ hnew
    rw [← heq, hold] at hnone
    cases hnone
  · intro key r _ _
    apply Option.eq_none_iff_forall_ne_some.mpr
    intro r' hr'
    obtain ⟨hd, hs, hn⟩ := h.plain_of_relation hr'
    exact h.database_ne hnew hr' (relationKey_inj hd hs hn (h.key_eq hr')).1.symm
  · intro key key' r r' hr hr' hstart hstart' heq
    obtain ⟨-, hs, hn⟩ := h.plain_of_relation hr'
    obtain ⟨-, hschema, hname'⟩ := relationKey_inj hnewName hs hn heq
    apply h.eq_of_names hr hr'
    exact ⟨((h.inDatabase_iff hname hr).mp hstart).trans
      ((h.inDatabase_iff hname hr').mp hstart').symm, hschema, hname'⟩

/-- The relations of a schema go to fresh keys when it gets a free name. -/
theorem CatalogState.Namespaced.freshKeys_schema (h : state.Namespaced)
    {databaseName name newName : String} {database : CatalogDatabase} (hnewName : Plain newName)
    (hdatabase : state.databases[databaseName]? = some database)
    (hold : database.schemas.contains name = true)
    (hnew : database.schemas.contains newName = false) :
  FreshKeys (schemaStart databaseName name) (fun r => { r with schema := newName })
    (fun r => schemaStart databaseName newName ++ r.name) state.relations
  := by
  have hok := h.databases_ok databaseName database hdatabase
  have hname := hok.schema_plain name hold
  constructor
  · intro key r hr _
    apply Bool.eq_false_iff.mpr
    intro hstart
    have heq := ((startsWith_schemaStart r.name hok.plain hnewName hok.plain hname).mp hstart).2
    rw [heq, hnew] at hold
    cases hold
  · intro key r hr _
    apply Option.eq_none_iff_forall_ne_some.mpr
    intro r' hr'
    obtain ⟨hd, hs, hn⟩ := h.plain_of_relation hr'
    obtain ⟨hd', hs', -⟩ := relationKey_inj hd hs hn (h.key_eq hr')
    exact h.schema_ne hdatabase hnew hr' hd'.symm hs'.symm
  · intro key key' r r' hr hr' hstart hstart' heq
    obtain ⟨hd, hs⟩ := (h.inSchema_iff hname hr).mp hstart
    obtain ⟨hd', hs'⟩ := (h.inSchema_iff hname hr').mp hstart'
    obtain ⟨-, -, hname'⟩ := relationKey_inj hok.plain hnewName (h.plain_of_relation hr').2.2 heq
    apply h.eq_of_names hr hr'
    exact ⟨hd.trans hd'.symm, hs.trans hs'.symm, hname'⟩

/-- An entry that names the same relation is as well stored. -/
theorem RelationOk.of_sameName {databases : KeyMap CatalogDatabase} {key : String}
    {r r' : CatalogRelation} (h : RelationOk databases key r) (hsame : r.SameName r') :
  RelationOk databases key r'
  := by
  obtain ⟨hkey, hschema, hplain⟩ := h
  constructor
  · rw [hsame.database, hsame.schema, hsame.name]
    exact hkey
  · rw [hsame.database, hsame.schema]
    exact hschema
  · rw [hsame.name]
    exact hplain

/-- A relation stays well stored when its schema is still there. -/
theorem RelationOk.of_databases {databases databases' : KeyMap CatalogDatabase} {key : String}
    {r : CatalogRelation} (h : RelationOk databases key r)
    (hschema : ∀ d : CatalogDatabase, databases[r.database]? = some d →
      d.schemas.contains r.schema = true →
      ∃ d' : CatalogDatabase, databases'[r.database]? = some d'
        ∧ d'.schemas.contains r.schema = true) :
  RelationOk databases' key r
  := by
  obtain ⟨hkey, ⟨d, hd, hcontains⟩, hplain⟩ := h
  exact ⟨hkey, hschema d hd hcontains, hplain⟩

/-- Databases stay well stored when one of them is changed without getting a dotted schema
name. -/
theorem databaseOk_of_modify (h : state.Namespaced) {name : String}
    {f : CatalogDatabase → CatalogDatabase} (hname : ∀ d, (f d).name = d.name)
    (hschemas : ∀ d schema, (f d).schemas.contains schema = true →
      Plain schema ∨ d.schemas.contains schema = true) :
  ∀ (name' : String) (d : CatalogDatabase), (state.databases.modify name f)[name']? = some d →
    DatabaseOk name' d
  := by
  intro name' d hd
  rw [KeyMap.get_modify] at hd
  split at hd
  · obtain ⟨d₀, hd₀, rfl⟩ := Option.map_eq_some_iff.mp hd
    have hok := h.databases_ok name' d₀ hd₀
    constructor
    · rw [hname]
      exact hok.name_eq
    · exact hok.plain
    · intro schema hschema
      obtain hplain | hold := hschemas d₀ schema hschema
      · exact hplain
      · exact hok.schema_plain schema hold
  · exact h.databases_ok name' d hd

/-- A relation stays well stored when a database is changed that keeps its schema. -/
theorem RelationOk.of_modify {databases : KeyMap CatalogDatabase} {key name : String}
    {r : CatalogRelation} {f : CatalogDatabase → CatalogDatabase}
    (h : RelationOk databases key r)
    (hf : name = r.database → ∀ d, d.schemas.contains r.schema = true →
      (f d).schemas.contains r.schema = true) :
  RelationOk (databases.modify name f) key r
  := by
  apply h.of_databases
  intro d hd hcontains
  rw [KeyMap.get_modify, hd]
  split
  · rename_i heq
    use f d
    exact ⟨rfl, hf heq d hcontains⟩
  · use d

theorem namespaced_addDatabase (h : state.Namespaced) {name : String} (owner : String)
    (hname : validateIdentifier name = .ok ())
    (hnew : state.databases.contains name = false) :
  CatalogState.Namespaced { state with
    databases := state.databases.insert name
      { name := name, schemas := {"public"}, owner := owner, parameters := ∅ } }
  := by
  constructor
  · intro name' d hd
    rw [KeyMap.get_insert] at hd
    split at hd
    · rename_i heq
      subst heq
      cases hd
      constructor
      · rfl
      · exact plain_of_validateIdentifier hname
      · intro schema hschema
        have hpublic : "public" = schema := by simpa using hschema
        subst hpublic
        decide
    · exact h.databases_ok name' d hd
  · intro key r hr
    apply (h.relations_ok key r hr).of_databases
    intro d hd hcontains
    use d
    have hne : name ≠ r.database := by
      rintro rfl
      rw [Std.ExtTreeMap.contains_eq_isSome_getElem?, hd] at hnew
      cases hnew
    rw [KeyMap.get_insert, if_neg hne]
    exact ⟨hd, hcontains⟩

theorem namespaced_renameDatabase (h : state.Namespaced) {name newName : String}
    {database : CatalogDatabase} (hname : validateIdentifier name = .ok ())
    (hnewName : validateIdentifier newName = .ok ())
    (hold : state.databases[name]? = some database)
    (hnew : state.databases.contains newName = false) :
  (renameDatabaseState name newName database state).Namespaced
  := by
  have hplain := plain_of_validateIdentifier hname
  have hnewPlain := plain_of_validateIdentifier hnewName
  have hne : ∀ d : CatalogDatabase, ∀ other, state.databases[other]? = some d →
      newName ≠ other := by
    rintro d other hd rfl
    rw [Std.ExtTreeMap.contains_eq_isSome_getElem?, hd] at hnew
    cases hnew
  constructor
  · intro name' d hd
    simp only [renameDatabaseState, KeyMap.get_insert, KeyMap.get_erase] at hd
    split at hd
    · rename_i heq
      subst heq
      cases hd
      constructor
      · rfl
      · exact hnewPlain
      · exact (h.databases_ok name database hold).schema_plain
    · split at hd
      · cases hd
      · exact h.databases_ok name' d hd
  · intro key r hr
    obtain ⟨hkept, hstarts⟩ | ⟨key₀, r₀, h₀, hstarts₀, rfl, rfl⟩ := moveRelations_entry
      (fun key₀ r₀ h₀ _ => by
        apply Bool.eq_false_iff.mpr
        intro hstarts
        exact hne database name hold ((startsWith_databaseStart _ _ hnewPlain hplain).mp
          hstarts).symm) hr
    · have hok := h.relations_ok key r hkept
      have hother : name ≠ r.database := by
        rintro rfl
        rw [hok.key_eq, (startsWith_databaseStart _ _ hplain hplain).mpr rfl] at hstarts
        cases hstarts
      apply hok.of_databases
      intro d hd hcontains
      use d
      simp only [renameDatabaseState, KeyMap.get_insert, KeyMap.get_erase]
      rw [if_neg (hne d _ hd), if_neg hother]
      exact ⟨hd, hcontains⟩
    · have hok := h.relations_ok key₀ r₀ h₀
      have hdatabase : name = r₀.database := by
        rw [hok.key_eq] at hstarts₀
        exact (startsWith_databaseStart _ _ (h.plain_of_relation h₀).1 hplain).mp hstarts₀
      constructor
      · rfl
      · obtain ⟨d, hd, hcontains⟩ := hok.schema_exists
        use { database with name := newName }
        rw [← hdatabase, hold] at hd
        cases hd
        constructor
        · simp only [renameDatabaseState, KeyMap.get_insert, if_true]
        · exact hcontains
      · exact hok.plain

theorem namespaced_editDatabase (h : state.Namespaced) (name : String)
    {f : CatalogDatabase → CatalogDatabase}
    (hf : ∀ d, (f d).name = d.name ∧ (f d).schemas = d.schemas) :
  CatalogState.Namespaced { state with databases := state.databases.modify name f }
  := by
  constructor
  · apply databaseOk_of_modify h
    · intro d
      exact (hf d).1
    · intro d schema hschema
      rw [(hf d).2] at hschema
      right
      exact hschema
  · intro key r hr
    apply (h.relations_ok key r hr).of_modify
    intro _ d hcontains
    rw [(hf d).2]
    exact hcontains

/-- Dropping relations keeps the others well stored. -/
theorem RelationOk.of_removeRelations {start key : String} {r : CatalogRelation}
    (h : state.Namespaced) (hr : (removeRelations start state.relations)[key]? = some r) :
  RelationOk state.databases key r ∧ startsWith key start = false
  := by
  rw [removeRelations, Std.ExtTreeMap.getElem?_filter', Option.filter_eq_some_iff] at hr
  obtain ⟨hr, hstarts⟩ := hr
  exact ⟨h.relations_ok key r hr, by simpa using hstarts⟩

theorem namespaced_dropDatabase (h : state.Namespaced) {name : String}
    (hname : validateIdentifier name = .ok ()) :
  CatalogState.Namespaced { state with
    databases := state.databases.erase name
    relations := removeRelations (databaseStart name) state.relations }
  := by
  have hplain := plain_of_validateIdentifier hname
  constructor
  · intro name' d hd
    rw [KeyMap.get_erase] at hd
    split at hd
    · cases hd
    · exact h.databases_ok name' d hd
  · intro key r hr
    obtain ⟨hok, hstarts⟩ := RelationOk.of_removeRelations h hr
    have hother : name ≠ r.database := by
      rintro rfl
      rw [hok.key_eq, (startsWith_databaseStart _ _ hplain hplain).mpr rfl] at hstarts
      cases hstarts
    apply hok.of_databases
    intro d hd hcontains
    use d
    rw [KeyMap.get_erase, if_neg hother]
    exact ⟨hd, hcontains⟩

theorem namespaced_addSchema (h : state.Namespaced) (databaseName : String) {schemaName : String}
    (hname : validateIdentifier schemaName = .ok ()) :
  CatalogState.Namespaced { state with
    databases := state.databases.modify databaseName
      (fun d => { d with schemas := d.schemas.insert schemaName }) }
  := by
  constructor
  · apply databaseOk_of_modify h
    · intro d
      rfl
    · intro d schema hschema
      obtain rfl | hold : schemaName = schema ∨ d.schemas.contains schema = true := by
        simpa using hschema
      · left
        exact plain_of_validateIdentifier hname
      · right
        exact hold
  · intro key r hr
    apply (h.relations_ok key r hr).of_modify
    intro _ d hcontains
    simp only [Std.ExtTreeSet.contains_insert, hcontains, Bool.or_true]

theorem namespaced_renameSchema (h : state.Namespaced) {databaseName name newName : String}
    {database : CatalogDatabase} (hnewName : validateIdentifier newName = .ok ())
    (hdatabase : state.databases[databaseName]? = some database)
    (hold : database.schemas.contains name = true)
    (hnew : database.schemas.contains newName = false) :
  CatalogState.Namespaced { state with
    databases := state.databases.modify databaseName
      (fun d => { d with schemas := (d.schemas.erase name).insert newName })
    relations := moveRelations (schemaStart databaseName name)
      (fun r => { r with schema := newName })
      (fun r => schemaStart databaseName newName ++ r.name) state.relations }
  := by
  have hok := h.databases_ok databaseName database hdatabase
  have hplain := hok.schema_plain name hold
  have hnewPlain := plain_of_validateIdentifier hnewName
  have hne : name ≠ newName := by
    rintro rfl
    rw [hold] at hnew
    cases hnew
  constructor
  · apply databaseOk_of_modify h
    · intro d
      rfl
    · intro d schema hschema
      obtain rfl | ⟨-, hold⟩ : newName = schema
          ∨ (name ≠ schema ∧ d.schemas.contains schema = true) := by
        simpa using hschema
      · left
        exact hnewPlain
      · right
        exact hold
  · intro key r hr
    obtain ⟨hkept, hstarts⟩ | ⟨key₀, r₀, h₀, hstarts₀, rfl, rfl⟩ := moveRelations_entry
      (fun key₀ r₀ h₀ _ => by
        apply Bool.eq_false_iff.mpr
        intro hstarts
        exact hne ((startsWith_schemaStart r₀.name hok.plain hnewPlain hok.plain hplain).mp
          hstarts).2) hr
    · have hrelation := h.relations_ok key r hkept
      have hother : databaseName = r.database → name ≠ r.schema := by
        rintro rfl rfl
        rw [hrelation.key_eq, relationKey_startsWith_schemaStart] at hstarts
        cases hstarts
      apply hrelation.of_modify
      intro heq d hcontains
      simpa [hother heq] using Or.inr hcontains
    · have hrelation := h.relations_ok key₀ r₀ h₀
      obtain ⟨hd₀, hs₀, -⟩ := h.plain_of_relation h₀
      obtain ⟨rfl, rfl⟩ : databaseName = r₀.database ∧ name = r₀.schema := by
        rw [hrelation.key_eq] at hstarts₀
        exact (startsWith_schemaStart _ hd₀ hs₀ hok.plain hplain).mp hstarts₀
      constructor
      · rfl
      · use { database with schemas := (database.schemas.erase r₀.schema).insert newName }
        constructor
        · rw [KeyMap.get_modify, if_pos rfl, hdatabase]
          rfl
        · simp
      · exact hrelation.plain

theorem namespaced_dropSchema (h : state.Namespaced) (databaseName name : String) :
  CatalogState.Namespaced { state with
    databases := state.databases.modify databaseName
      (fun d => { d with schemas := d.schemas.erase name })
    relations := removeRelations (schemaStart databaseName name) state.relations }
  := by
  constructor
  · apply databaseOk_of_modify h
    · intro d
      rfl
    · intro d schema hschema
      obtain ⟨-, hold⟩ : name ≠ schema ∧ d.schemas.contains schema = true := by
        simpa using hschema
      right
      exact hold
  · intro key r hr
    obtain ⟨hok, hstarts⟩ := RelationOk.of_removeRelations h hr
    have hother : databaseName = r.database → name ≠ r.schema := by
      rintro rfl rfl
      rw [hok.key_eq, relationKey_startsWith_schemaStart] at hstarts
      cases hstarts
    apply hok.of_modify
    intro heq d hcontains
    simpa [hother heq] using hcontains

/-- Changing only the relations keeps the invariant when every entry is well stored. -/
theorem CatalogState.Namespaced.of_relations (h : state.Namespaced)
    {relations : KeyMap CatalogRelation}
    (hrelations : ∀ (key : String) (r : CatalogRelation), relations[key]? = some r →
      RelationOk state.databases key r) :
  CatalogState.Namespaced { state with relations := relations }
  := ⟨h.databases_ok, hrelations⟩

/-- Storing a well-stored relation keeps the invariant. -/
theorem namespaced_insert (h : state.Namespaced) {key : String} {relation : CatalogRelation}
    (hrelation : RelationOk state.databases key relation) :
  CatalogState.Namespaced { state with relations := state.relations.insert key relation }
  := by
  apply h.of_relations
  intro key' r hr
  rw [KeyMap.get_insert] at hr
  split at hr
  · rename_i heq
    subst heq
    cases hr
    exact hrelation
  · exact h.relations_ok key' r hr

theorem namespaced_dropRelation (h : state.Namespaced) (key : String) :
  CatalogState.Namespaced { state with relations := state.relations.erase key }
  := by
  apply h.of_relations
  intro key' r hr
  rw [KeyMap.get_erase] at hr
  split at hr
  · cases hr
  · exact h.relations_ok key' r hr

theorem namespaced_mapRelations (h : state.Namespaced)
    {f : String → CatalogRelation → CatalogRelation}
    (hf : ∀ key (relation : CatalogRelation), relation.SameName (f key relation)) :
  CatalogState.Namespaced { state with relations := state.relations.map f }
  := by
  apply h.of_relations
  intro key r hr
  rw [Std.ExtTreeMap.getElem?_map] at hr
  obtain ⟨r₀, hr₀, rfl⟩ := Option.map_eq_some_iff.mp hr
  exact (h.relations_ok key r₀ hr₀).of_sameName (hf key r₀)

theorem namespaced_renameRelation (h : state.Namespaced)
    {databaseName schemaName name newName : String} {relation : CatalogRelation}
    (hnewName : validateIdentifier newName = .ok ())
    (hold : state.relations[relationKey databaseName schemaName name]? = some relation) :
  CatalogState.Namespaced { state with
    relations := (state.relations.erase (relationKey databaseName schemaName name)).insert
      (relationKey databaseName schemaName newName) { relation with name := newName } }
  := by
  apply namespaced_insert (namespaced_dropRelation h _)
  have hok := h.relations_ok _ relation hold
  obtain ⟨hd, hs, hn⟩ := h.plain_of_relation hold
  -- the key the relation was found under names its own database and schema
  obtain ⟨rfl, rfl, -⟩ := relationKey_inj hd hs hn hok.key_eq
  constructor
  · rfl
  · exact hok.schema_exists
  · exact plain_of_validateIdentifier hnewName

/-- Every edit of the catalogue keeps the invariant. -/
theorem CatalogEdit.namespaced {state state' : CatalogState} (hedit : CatalogEdit state state')
    (h : state.Namespaced) :
  state'.Namespaced
  := by
  cases hedit with
  | bump => exact ⟨h.databases_ok, h.relations_ok⟩
  | other _ hdatabases hrelations =>
      constructor
      · rw [hdatabases]
        exact h.databases_ok
      · rw [hrelations, hdatabases]
        exact h.relations_ok
  | addDatabase name owner hname hnew => exact namespaced_addDatabase h owner hname hnew
  | renameDatabase name newName database hname hnewName hold hnew =>
      exact namespaced_renameDatabase h hname hnewName hold hnew
  | editDatabase name f hf => exact namespaced_editDatabase h name hf
  | dropDatabase name hname => exact namespaced_dropDatabase h hname
  | addSchema databaseName schemaName hname =>
      exact namespaced_addSchema h databaseName hname
  | renameSchema databaseName name newName database hnewName hdatabase hold hnew =>
      exact namespaced_renameSchema h hnewName hdatabase hold hnew
  | dropSchema databaseName name hname => exact namespaced_dropSchema h databaseName name
  | addRelation relation database hname hdatabase hschema =>
      apply namespaced_insert h
      constructor
      · rfl
      · use database
      · exact plain_of_validateIdentifier hname
  | editRelation key relation edited hold hsame =>
      apply namespaced_insert h
      exact (h.relations_ok key relation hold).of_sameName hsame
  | mapRelations f hf => exact namespaced_mapRelations h hf
  | renameRelation databaseName schemaName name newName relation hnewName hold =>
      exact namespaced_renameRelation h hnewName hold
  | dropRelation key => exact namespaced_dropRelation h key

theorem Edits.namespaced {state state' : CatalogState} (hedits : Edits state state')
    (h : state.Namespaced) :
  state'.Namespaced
  := by
  induction hedits with
  | refl => exact h
  | tail _ hedit ih => exact hedit.namespaced ih

end

/-! ### Every reachable catalogue -/

/-- The systems whose catalogue is that of a first install or of a freshly initialised
cluster. -/
def Initial (w : World) : Prop :=
  ∃ credentials now,
    w.catalog = bootstrapState credentials now ∨ w.catalog = freshInitState credentials now

/-- A step performs one operation of the control plane, in any session and whatever its
outcome. -/
def ControlStep (o : Outside) : World → World → Prop :=
  Run.byOps (fun (call : SessionContext × ControlOp) w =>
    (Eff.exec (performOp o call.1 call.2) w).2)
    (fun _ _ => True)

/-- The catalogue of a new cluster satisfies the invariant. -/
theorem initialState_namespaced (users : KeyMap CatalogUser) :
  (initialState users).Namespaced
  := by
  constructor
  · intro name d hd
    simp only [initialState, KeyMap.get_insert] at hd
    split at hd
    · rename_i heq
      subst heq
      cases hd
      constructor
      · rfl
      · decide
      · intro schema hschema
        have hpublic : "public" = schema := by simpa [postgresDatabase] using hschema
        subst hpublic
        decide
    · simp at hd
  · intro key r hr
    simp [initialState] at hr

/-- In every catalogue reached from that of a new cluster by operations of the control plane,
relations are stored under their own names, in schemas that exist, and databases under their
own names. -/
theorem reachable_coherent (o : Outside) {w : World}
    (h : Run.Reachable Initial (ControlStep o) w) :
  w.catalog.Coherent
  := by
  apply CatalogState.Namespaced.coherent
  refine Run.Reachable.invariant (P := fun w => w.catalog.Namespaced) ?_ ?_ h
  · rintro w ⟨credentials, now, hw | hw⟩
    · rw [hw]
      apply initialState_namespaced
    · rw [hw]
      apply initialState_namespaced
  · rintro w w' hns ⟨⟨session, op⟩, -, rfl⟩
    exact (performOp_leads o session w op).1.namespaced hns

theorem reachable_coherent_createDatabase :
  let w := (Eff.exec (performOp .faultless {} (.createDatabase "sales")) .bootstrap).2
  w.catalog.databases.contains "sales" = true ∧ w.catalog.Coherent
  := by
  constructor
  · decide
  · apply reachable_coherent .faultless
    refine .step (s := .bootstrap) (.start ?_) ?_
    · use fun _ => ⟨"", "", ""⟩, fun _ => 0
      left
      rfl
    · exact ⟨({}, .createDatabase "sales"), trivial, rfl⟩
