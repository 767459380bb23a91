import AnalyticsDB.Control.Namespace
import AnalyticsDB.Control.RaftReplay

/-!
# The catalogue a log makes

The entries of the log change the catalogue without the checks that the control plane makes.  What
is proved is when an entry keeps the namespace of the relations coherent and leaves alone what it
does not name: exactly when it meets the checks that are missing.
-/

namespace Raft

open Run

/-- Relations are stored under their own names, in schemas that exist, and the names of their
columns are distinct. -/
structure Sound (state : CatalogState) : Prop where
  coherent : state.Coherent
  columns_nodup : ∀ (key : String) (r : CatalogRelation), state.relations[key]? = some r →
    (r.columns.map (·.name)).Nodup

/-- A relation has the names in a log entry. -/
def HasNames (database schema : Option String) (name : String) (r : CatalogRelation) : Prop :=
  r.database = database.getD "postgres" ∧ r.schema = schema.getD "public" ∧ r.name = name

instance (database schema : Option String) (name : String) (r : CatalogRelation) :
    Decidable (HasNames database schema name r) :=
  inferInstanceAs (Decidable (_ ∧ _))

/-- The relations that an entry names as what it changes; what it registers was not there. -/
def LogEntry.NamesRelation (r : CatalogRelation) : LogEntry → Prop
  | .dropRelation database schema name _ => HasNames database schema name r
  | .addColumn database schema name _ => HasNames database schema name r
  | .renameRelation database schema name _ => HasNames database schema name r
  | .updateRelationStoragePath database schema name _ => HasNames database schema name r
  | .createDatabase _ | .createSchema .. | .registerRelation _ | .setUserPassword ..
  | .registerNode _ | .updateNodeStatus .. => False

def LogEntry.NamesUser (name : String) : LogEntry → Prop
  | .setUserPassword userName .. => userName = name
  | _ => False

def LogEntry.NamesNode (id : String) : LogEntry → Prop
  | .registerNode node => node.id = id
  | .updateNodeStatus nodeId .. => nodeId = id
  | _ => False

/-- An entry leaves alone what it does not name: databases keep their schemas, and relations,
users and nodes stay as they are. -/
structure Spares (data : LogEntry) (state state' : CatalogState) : Prop where
  schemas : ∀ (name : String) (d : CatalogDatabase), state.databases[name]? = some d →
    ∃ d' : CatalogDatabase, state'.databases[name]? = some d'
      ∧ ∀ schema, d.schemas.contains schema = true → d'.schemas.contains schema = true
  relations : ∀ (key : String) (r : CatalogRelation), state.relations[key]? = some r →
    ¬ data.NamesRelation r → state'.relations[key]? = some r
  users : ∀ (name : String) (u : CatalogUser), state.users[name]? = some u →
    ¬ data.NamesUser name → state'.users[name]? = some u
  nodes : ∀ (id : String) (n : ClusterNode), state.nodes[id]? = some n →
    ¬ data.NamesNode id → state'.nodes[id]? = some n

/-- An entry keeps the catalogue sound and leaves alone what it does not name. -/
structure LogEntry.Keeps (state : CatalogState) (data : LogEntry) : Prop where
  sound : Sound (data.apply state)
  spares : Spares data state (data.apply state)

/-- What an entry has to meet: a database that is created again has no other schema than `public`;
a relation is registered in a schema that is there, with distinct columns, and where no other one
is; a column that is added is new; a relation is renamed to where no other one is; and what is
found under a key is what the names say, not what other names with dots in them say. -/
def LogEntry.Fits (state : CatalogState) : LogEntry → Prop
  | .createDatabase name =>
    ∀ d ∈ state.databases[name]?, ∀ schema, d.schemas.contains schema = true → schema = "public"
  | .registerRelation relation =>
    (∃ d ∈ state.databases[relation.database]?, d.schemas.contains relation.schema = true)
      ∧ (relation.columns.map (·.name)).Nodup
      ∧ ∀ r ∈ state.relations[relation.key]?, r = relation
  | .dropRelation database schema name _ =>
    ∀ r ∈ state.relations[logRelationKey database schema name]?, HasNames database schema name r
  | .addColumn database schema tableName column =>
    ∀ r ∈ state.relations[logRelationKey database schema tableName]?,
      HasNames database schema tableName r ∧ column.name ∉ r.columns.map (·.name)
  | .renameRelation database schema name newName =>
    ∀ r ∈ state.relations[logRelationKey database schema name]?,
      if newName = name then
        r.name = name
      else
        HasNames database schema name r
          ∧ ∀ other ∈ state.relations[logRelationKey database schema newName]?,
              other = { r with name := newName }
  | .updateRelationStoragePath database schema name newStoragePath =>
    ∀ r ∈ state.relations[logRelationKey database schema name]?,
      HasNames database schema name r ∨ r.storagePath = some newStoragePath
  | .createSchema .. | .setUserPassword .. | .registerNode _ | .updateNodeStatus .. => True

/-- A relation that is stored under its own names, in a schema of the databases, with distinct
columns. -/
structure RelationSound (databases : KeyMap CatalogDatabase) (key : String) (r : CatalogRelation) :
    Prop where
  key_eq : key = relationKey r.database r.schema r.name
  schema_exists : ∃ d : CatalogDatabase, databases[r.database]? = some d
    ∧ d.schemas.contains r.schema = true
  columns_nodup : (r.columns.map (·.name)).Nodup

section

variable {state : CatalogState} {data : LogEntry}

theorem Sound.relation (h : Sound state) {key : String} {r : CatalogRelation}
    (hr : state.relations[key]? = some r) :
  RelationSound state.databases key r
  := ⟨h.coherent.key_eq key r hr, h.coherent.schema_exists key r hr, h.columns_nodup key r hr⟩

theorem sound_of_relations
    (hdatabases : ∀ (name : String) (d : CatalogDatabase), state.databases[name]? = some d →
      d.name = name)
    (hrelations : ∀ (key : String) (r : CatalogRelation), state.relations[key]? = some r →
      RelationSound state.databases key r) :
  Sound state
  := by
  constructor
  · constructor
    · exact fun key r hr => (hrelations key r hr).key_eq
    · exact fun key r hr => (hrelations key r hr).schema_exists
    · exact hdatabases
  · exact fun key r hr => (hrelations key r hr).columns_nodup

/-- An entry that changes the relations keeps the catalogue sound and leaves alone what it does not
name when it does so for the relations. -/
theorem keeps_of_relations (h : Sound state) {relations : KeyMap CatalogRelation}
    (happly : data.apply state = { state with relations := relations })
    (hsound : ∀ (key : String) (r : CatalogRelation), relations[key]? = some r →
      RelationSound state.databases key r)
    (hspares : ∀ (key : String) (r : CatalogRelation), state.relations[key]? = some r →
      ¬ data.NamesRelation r → relations[key]? = some r) :
  data.Keeps state
  := by
  constructor
  · rw [happly]
    exact sound_of_relations h.coherent.name_eq hsound
  · rw [happly]
    constructor
    · exact fun name d hd => ⟨d, hd, fun schema hschema => hschema⟩
    · exact hspares
    · exact fun name u hu _ => hu
    · exact fun id n hn _ => hn

/-! ### Databases, users and nodes -/

theorem keeps_createDatabase_iff (h : Sound state) (name : String) :
  (LogEntry.createDatabase name).Keeps state ↔ (LogEntry.createDatabase name).Fits state
  := by
  constructor
  · rintro hkeeps d hd schema hschema
    obtain ⟨d', hd', hkept⟩ := hkeeps.spares.schemas name d hd
    simp only [LogEntry.apply, KeyMap.get_insert, if_true, Option.some.injEq] at hd'
    subst hd'
    have hpublic : "public" = schema := by simpa using hkept schema hschema
    exact hpublic.symm
  · intro hfits
    constructor
    · apply sound_of_relations
      · intro name' d hd
        simp only [LogEntry.apply, KeyMap.get_insert] at hd
        split at hd
        · rename_i hname
          rw [← Option.some.inj hd]
          exact hname
        · exact h.coherent.name_eq name' d hd
      · intro key r hr
        obtain ⟨hkey, ⟨d, hd, hschema⟩, hcolumns⟩ := h.relation hr
        refine ⟨hkey, ?_, hcolumns⟩
        simp only [LogEntry.apply, KeyMap.get_insert]
        split
        · rename_i hname
          subst hname
          refine ⟨_, rfl, ?_⟩
          simp [hfits d hd r.schema hschema]
        · exact ⟨d, hd, hschema⟩
    · constructor
      · intro name' d hd
        simp only [LogEntry.apply, KeyMap.get_insert]
        split
        · rename_i hname
          subst hname
          refine ⟨_, rfl, ?_⟩
          intro schema hschema
          simp [hfits d hd schema hschema]
        · exact ⟨d, hd, fun schema hschema => hschema⟩
      · exact fun key r hr _ => hr
      · exact fun name u hu _ => hu
      · exact fun id n hn _ => hn

theorem keeps_createSchema (h : Sound state) (database : Option String) (name : String) :
  (LogEntry.createSchema database name).Keeps state
  := by
  -- Every schema that was in a database stays in it.
  have hschemas : ∀ (name' : String) (d : CatalogDatabase), state.databases[name']? = some d →
      ∃ d' : CatalogDatabase,
        ((LogEntry.createSchema database name).apply state).databases[name']? = some d'
          ∧ d'.name = d.name
          ∧ ∀ schema, d.schemas.contains schema = true → d'.schemas.contains schema = true := by
    intro name' d hd
    simp only [LogEntry.apply, KeyMap.get_modify, hd]
    split
    · refine ⟨_, rfl, rfl, ?_⟩
      intro schema hschema
      simp [hschema]
    · exact ⟨d, rfl, rfl, fun schema hschema => hschema⟩
  constructor
  · apply sound_of_relations
    · intro name' d' hd'
      cases hd : state.databases[name']? with
      | none => simp [LogEntry.apply, KeyMap.get_modify, hd] at hd'
      | some d =>
          obtain ⟨d'', hd'', hname, -⟩ := hschemas name' d hd
          obtain rfl := Option.some.inj (hd'.symm.trans hd'')
          rw [hname]
          exact h.coherent.name_eq name' d hd
    · intro key r hr
      obtain ⟨hkey, ⟨d, hd, hschema⟩, hcolumns⟩ := h.relation hr
      obtain ⟨d', hd', -, hkept⟩ := hschemas r.database d hd
      exact ⟨hkey, ⟨d', hd', hkept r.schema hschema⟩, hcolumns⟩
  · constructor
    · intro name' d hd
      obtain ⟨d', hd', -, hkept⟩ := hschemas name' d hd
      exact ⟨d', hd', hkept⟩
    · exact fun key r hr _ => hr
    · exact fun name u hu _ => hu
    · exact fun id n hn _ => hn

theorem keeps_setUserPassword (h : Sound state) (name password : String) (version : Nat)
    (rotatedAt : Option Nat) :
  (LogEntry.setUserPassword name password version rotatedAt).Keeps state
  := by
  constructor
  · exact sound_of_relations h.coherent.name_eq (fun key r hr => h.relation hr)
  · constructor
    · exact fun name d hd => ⟨d, hd, fun schema hschema => hschema⟩
    · exact fun key r hr _ => hr
    · intro name' u hu hnames
      have hname : ¬ name = name' := hnames
      simp only [LogEntry.apply, KeyMap.get_modify, hname, if_false, hu]
    · exact fun id n hn _ => hn

theorem keeps_registerNode (h : Sound state) (node : ClusterNode) :
  (LogEntry.registerNode node).Keeps state
  := by
  constructor
  · exact sound_of_relations h.coherent.name_eq (fun key r hr => h.relation hr)
  · constructor
    · exact fun name d hd => ⟨d, hd, fun schema hschema => hschema⟩
    · exact fun key r hr _ => hr
    · exact fun name u hu _ => hu
    · intro id n hn hnames
      have hid : ¬ node.id = id := hnames
      simp only [LogEntry.apply, KeyMap.get_insert, hid, if_false, hn]

theorem keeps_updateNodeStatus (h : Sound state) (nodeId : String) (status : NodeStatus)
    (heartbeat : Nat) :
  (LogEntry.updateNodeStatus nodeId status heartbeat).Keeps state
  := by
  constructor
  · exact sound_of_relations h.coherent.name_eq (fun key r hr => h.relation hr)
  · constructor
    · exact fun name d hd => ⟨d, hd, fun schema hschema => hschema⟩
    · exact fun key r hr _ => hr
    · exact fun name u hu _ => hu
    · intro id n hn hnames
      have hid : ¬ nodeId = id := hnames
      simp only [LogEntry.apply, KeyMap.get_modify, hid, if_false, hn]

/-! ### Relations -/

theorem keeps_registerRelation_iff (h : Sound state) (relation : CatalogRelation) :
  (LogEntry.registerRelation relation).Keeps state
    ↔ (LogEntry.registerRelation relation).Fits state
  := by
  constructor
  · intro hkeeps
    have hregistered : ((LogEntry.registerRelation relation).apply state).relations[relation.key]?
        = some relation := by
      simp only [LogEntry.apply, CatalogRelation.key, KeyMap.get_insert, if_true]
    obtain ⟨-, ⟨d, hd, hschema⟩, hcolumns⟩ := hkeeps.sound.relation hregistered
    refine ⟨⟨d, hd, hschema⟩, hcolumns, ?_⟩
    intro r hr
    have hkept := hkeeps.spares.relations relation.key r hr not_false
    rw [hregistered] at hkept
    exact (Option.some.inj hkept).symm
  · rintro ⟨⟨d, hd, hschema⟩, hcolumns, hfree⟩
    apply keeps_of_relations h rfl
    · intro key r hr
      rw [KeyMap.get_insert] at hr
      split at hr
      · rename_i hkey
        subst hkey
        obtain rfl := Option.some.inj hr
        exact ⟨rfl, ⟨d, hd, hschema⟩, hcolumns⟩
      · exact h.relation hr
    · intro key r hr _
      rw [KeyMap.get_insert]
      split
      · rename_i hkey
        subst hkey
        rw [hfree r hr]
      · exact hr

theorem keeps_dropRelation_iff (h : Sound state) (database schema : Option String) (name : String)
    (kind : CatalogRelationKind) :
  (LogEntry.dropRelation database schema name kind).Keeps state
    ↔ (LogEntry.dropRelation database schema name kind).Fits state
  := by
  constructor
  · intro hkeeps r hr
    by_contra hnames
    have hkept := hkeeps.spares.relations _ r hr hnames
    simp [LogEntry.apply] at hkept
  · intro hfits
    apply keeps_of_relations h rfl
    · intro key r hr
      rw [KeyMap.get_erase] at hr
      split at hr
      · cases hr
      · exact h.relation hr
    · intro key r hr hnames
      rw [KeyMap.get_erase]
      split
      · rename_i hkey
        subst hkey
        exact absurd (hfits r hr) hnames
      · exact hr

/-- An entry that modifies the relation under a key, without its names, keeps the catalogue sound
and leaves alone what it does not name when it finds the relation that it names, or one it does
not change, and leaves distinct columns. -/
theorem keeps_of_modify (h : Sound state) {key : String} {f : CatalogRelation → CatalogRelation}
    (happly : data.apply state = { state with relations := state.relations.modify key f })
    (hnames : ∀ r, (f r).database = r.database ∧ (f r).schema = r.schema ∧ (f r).name = r.name)
    (hfits : ∀ r ∈ state.relations[key]?,
      (data.NamesRelation r ∨ f r = r) ∧ ((f r).columns.map (·.name)).Nodup) :
  data.Keeps state
  := by
  apply keeps_of_relations h happly
  · intro key' r' hr'
    rw [KeyMap.get_modify] at hr'
    split at hr'
    · rename_i hkey
      subst hkey
      obtain ⟨r, hr, rfl⟩ := Option.map_eq_some_iff.mp hr'
      obtain ⟨hkey, hschema, -⟩ := h.relation hr
      obtain ⟨hdatabase, hschema', hname⟩ := hnames r
      refine ⟨?_, ?_, (hfits r hr).2⟩
      · rw [hdatabase, hschema', hname]
        exact hkey
      · rw [hdatabase, hschema']
        exact hschema
    · exact h.relation hr'
  · intro key' r hr hnot
    rw [KeyMap.get_modify]
    split
    · rename_i hkey
      subst hkey
      rw [hr, Option.map_some, ((hfits r hr).1.resolve_left hnot)]
    · exact hr

/-- What such an entry finds, when it leaves alone what it does not name. -/
theorem names_of_modify {key : String} {f : CatalogRelation → CatalogRelation}
    (happly : data.apply state = { state with relations := state.relations.modify key f })
    (hkeeps : data.Keeps state) {r : CatalogRelation} (hr : state.relations[key]? = some r) :
  data.NamesRelation r ∨ f r = r
  := by
  by_cases hnames : data.NamesRelation r
  · exact .inl hnames
  · have hkept := hkeeps.spares.relations key r hr hnames
    rw [happly] at hkept
    simp only [KeyMap.get_modify, if_true, hr, Option.map_some, Option.some.injEq] at hkept
    exact .inr hkept

theorem keeps_addColumn_iff (h : Sound state) (database schema : Option String)
    (tableName : String) (column : CatalogColumn) :
  (LogEntry.addColumn database schema tableName column).Keeps state
    ↔ (LogEntry.addColumn database schema tableName column).Fits state
  := by
  have hnodup : ∀ r ∈ state.relations[logRelationKey database schema tableName]?,
      ((r.columns ++ [column]).map (·.name)).Nodup ↔ column.name ∉ r.columns.map (·.name) := by
    intro r hr
    rw [List.map_append, List.map_singleton, List.nodup_append]
    constructor
    · intro hdistinct hmem
      exact hdistinct.2.2 column.name hmem column.name (List.mem_singleton.mpr rfl) rfl
    · intro hnew
      refine ⟨(h.relation hr).columns_nodup, List.nodup_singleton _, ?_⟩
      rintro name hname _ hlast rfl
      rw [List.mem_singleton.mp hlast] at hname
      exact hnew hname
  constructor
  · intro hkeeps r hr
    constructor
    · obtain hnames | hsame := names_of_modify rfl hkeeps hr
      · exact hnames
      · have hcolumns := congrArg (fun r => r.columns.length) hsame
        simp at hcolumns
    · rw [← hnodup r hr]
      have hadded : ((LogEntry.addColumn database schema tableName column).apply
          state).relations[logRelationKey database schema tableName]?
          = some { r with columns := r.columns ++ [column] } := by
        simp only [LogEntry.apply, KeyMap.get_modify, if_true, Option.mem_def.mp hr,
          Option.map_some]
      exact (hkeeps.sound.relation hadded).columns_nodup
  · intro hfits
    refine @keeps_of_modify _ _ h _ _ rfl ?_ ?_
    · exact fun _ => ⟨rfl, rfl, rfl⟩
    · intro r hr
      exact ⟨.inl (hfits r hr).1, (hnodup r hr).mpr (hfits r hr).2⟩

theorem keeps_updateRelationStoragePath_iff (h : Sound state) (database schema : Option String)
    (name newStoragePath : String) :
  (LogEntry.updateRelationStoragePath database schema name newStoragePath).Keeps state
    ↔ (LogEntry.updateRelationStoragePath database schema name newStoragePath).Fits state
  := by
  constructor
  · intro hkeeps r hr
    obtain hnames | hsame := names_of_modify rfl hkeeps hr
    · exact .inl hnames
    · exact .inr (congrArg CatalogRelation.storagePath hsame).symm
  · intro hfits
    refine @keeps_of_modify _ _ h _ _ rfl ?_ ?_
    · exact fun _ => ⟨rfl, rfl, rfl⟩
    · intro r hr
      refine ⟨?_, (h.relation hr).columns_nodup⟩
      obtain hnames | hpath := hfits r hr
      · exact .inl hnames
      · right
        obtain ⟨⟩ := r
        simp only at hpath
        rw [hpath]

/-- The keys of two names in one schema differ as the names do. -/
theorem logRelationKey_inj {database schema : Option String} {name name' : String} :
  logRelationKey database schema name = logRelationKey database schema name' ↔ name = name'
  := by
  constructor
  · intro h
    have hlist := congrArg String.toList h
    rw [logRelationKey, logRelationKey, relationKey_toList, relationKey_toList] at hlist
    exact String.toList_inj.mp (by simpa using hlist)
  · rintro rfl
    rfl

theorem keeps_renameRelation_iff (h : Sound state) (database schema : Option String)
    (name newName : String) :
  (LogEntry.renameRelation database schema name newName).Keeps state
    ↔ (LogEntry.renameRelation database schema name newName).Fits state
  := by
  cases hr : state.relations[logRelationKey database schema name]? with
  | none =>
      have happly : (LogEntry.renameRelation database schema name newName).apply state = state := by
        simp only [LogEntry.apply, hr]
      apply iff_of_true
      · exact keeps_of_relations h happly (fun key r hr => h.relation hr) (fun key r hr _ => hr)
      · intro r hr'
        rw [hr] at hr'
        cases hr'
  | some r =>
      have happly : (LogEntry.renameRelation database schema name newName).apply state
          = { state with
              relations := (state.relations.erase (logRelationKey database schema name)).insert
                (logRelationKey database schema newName) { r with name := newName } } := by
        simp only [LogEntry.apply, hr]
      constructor
      · intro hkeeps r' hr'
        obtain rfl := Option.some.inj (hr.symm.trans hr')
        have hspares := hkeeps.spares.relations
        rw [happly] at hspares
        simp only [KeyMap.get_insert, KeyMap.get_erase] at hspares
        split
        · rename_i hname
          subst hname
          by_cases hnames : HasNames database schema newName r
          · exact hnames.2.2
          · have hkept := hspares _ r hr hnames
            rw [if_pos rfl] at hkept
            exact (congrArg CatalogRelation.name (Option.some.inj hkept)).symm
        · rename_i hname
          have hkeys : ¬ logRelationKey database schema newName
              = logRelationKey database schema name := fun hkey => hname (logRelationKey_inj.mp hkey)
          constructor
          · by_contra hnames
            have hkept := hspares _ r hr hnames
            rw [if_neg hkeys, if_pos rfl] at hkept
            cases hkept
          · intro other hother
            have hnot : ¬ HasNames database schema name other := by
              rintro ⟨hdatabase, hschema, hname'⟩
              apply hkeys
              have hkey := (h.relation hother).key_eq
              rw [hdatabase, hschema, hname'] at hkey
              exact hkey
            have hkept := hspares _ other hother hnot
            rw [if_pos rfl] at hkept
            exact (Option.some.inj hkept).symm
      · intro hfits
        have hfits := hfits r hr
        apply keeps_of_relations h happly
        · intro key r' hr'
          rw [KeyMap.get_insert, KeyMap.get_erase] at hr'
          obtain ⟨hkey, hschema, hcolumns⟩ := h.relation hr
          split at hr'
          · rename_i hnew
            subst hnew
            obtain rfl := Option.some.inj hr'
            refine ⟨?_, hschema, hcolumns⟩
            split at hfits
            · rename_i hname
              subst hname
              rw [hkey, hfits]
            · obtain ⟨⟨hdatabase, hschema', -⟩, -⟩ := hfits
              change logRelationKey database schema newName
                = relationKey r.database r.schema newName
              rw [hdatabase, hschema', logRelationKey]
          · split at hr'
            · cases hr'
            · exact h.relation hr'
        · intro key r' hr' hnames
          rw [KeyMap.get_insert, KeyMap.get_erase]
          split
          · rename_i hnew
            subst hnew
            split at hfits
            · rename_i hname
              subst hname
              obtain rfl := Option.some.inj (hr.symm.trans hr')
              obtain ⟨⟩ := r
              simp only at hfits
              rw [hfits]
            · rw [hfits.2 r' hr']
          · rename_i hnew
            split
            · rename_i hold
              subst hold
              obtain rfl := Option.some.inj (hr.symm.trans hr')
              split at hfits
              · rename_i hname
                subst hname
                exact absurd rfl hnew
              · exact absurd hfits.1 hnames
            · exact hr'

/-- An entry keeps the catalogue sound and leaves alone what it does not name exactly when it meets
the missing checks. -/
theorem keeps_iff (h : Sound state) (data : LogEntry) :
  data.Keeps state ↔ data.Fits state
  := by
  cases data with
  | createDatabase name => apply keeps_createDatabase_iff h
  | createSchema database name => exact iff_of_true (keeps_createSchema h database name) trivial
  | registerRelation relation => apply keeps_registerRelation_iff h
  | dropRelation database schema name kind => apply keeps_dropRelation_iff h
  | addColumn database schema tableName column => apply keeps_addColumn_iff h
  | renameRelation database schema name newName => apply keeps_renameRelation_iff h
  | updateRelationStoragePath database schema name newStoragePath =>
      apply keeps_updateRelationStoragePath_iff h
  | setUserPassword name password version rotatedAt =>
      exact iff_of_true (keeps_setUserPassword h name password version rotatedAt) trivial
  | registerNode node => exact iff_of_true (keeps_registerNode h node) trivial
  | updateNodeStatus nodeId status heartbeat =>
      exact iff_of_true (keeps_updateNodeStatus h nodeId status heartbeat) trivial

end

/-! ### Logs -/

/-- What an entry has to meet where a node applies it. -/
def Entry.Fits (entry : Entry) (store : CatalogStore) : Prop :=
  match entry.payload with
  | .normal data => data.Fits store.catalogState
  | .membership _ | .blank => True

/-- A node that applies an entry keeps its catalogue sound, and leaves alone what the entry does
not name. -/
structure Entry.Keeps (entry : Entry) (store : CatalogStore) : Prop where
  sound : Sound (store.applyEntry entry).catalogState
  spares : match entry.payload with
    | .normal data => Spares data store.catalogState (store.applyEntry entry).catalogState
    | .membership _ | .blank => (store.applyEntry entry).catalogState = store.catalogState

/-- Every entry of a log has a property where it is applied. -/
abbrev AtEveryEntry (P : Entry → CatalogStore → Prop) (log : List Entry) (store : CatalogStore) :
    Prop :=
  AllAllowed (fun entry store => store.applyEntry entry) P log store

theorem entry_keeps_iff {store : CatalogStore} (h : Sound store.catalogState) (entry : Entry) :
  entry.Keeps store ↔ entry.Fits store
  := by
  have happly := catalogState_applyEntry store entry
  unfold Entry.Fits
  cases hpayload : entry.payload with
  | normal data =>
      rw [Entry.applyTo, hpayload] at happly
      dsimp only at happly ⊢
      rw [← keeps_iff h data]
      constructor
      · rintro ⟨hsound, hspares⟩
        rw [hpayload, happly] at hspares
        rw [happly] at hsound
        exact ⟨hsound, hspares⟩
      · rintro ⟨hsound, hspares⟩
        constructor
        · rw [happly]
          exact hsound
        · rw [hpayload, happly]
          exact hspares
  | membership mem =>
      rw [Entry.applyTo, hpayload] at happly
      dsimp only at happly ⊢
      refine iff_of_true ⟨?_, ?_⟩ trivial
      · rw [happly]
        exact h
      · rw [hpayload]
        exact happly
  | blank =>
      rw [Entry.applyTo, hpayload] at happly
      dsimp only at happly ⊢
      refine iff_of_true ⟨?_, ?_⟩ trivial
      · rw [happly]
        exact h
      · rw [hpayload]
        exact happly

/-- From a sound catalogue, every entry of a log keeps the catalogue sound and leaves alone what it
does not name exactly when every entry meets the missing checks where it is applied; and then the
catalogue is sound in the end. -/
theorem log_keeps_iff {store : CatalogStore} (h : Sound store.catalogState) (log : List Entry) :
  (AtEveryEntry Entry.Keeps log store ↔ AtEveryEntry Entry.Fits log store)
    ∧ (AtEveryEntry Entry.Fits log store →
        Sound (store.applyToStateMachine log).1.catalogState)
  := by
  induction log generalizing store with
  | nil => exact ⟨Iff.rfl, fun _ => h⟩
  | cons entry log ih =>
      have hentry := entry_keeps_iff h entry
      constructor
      · constructor
        · rintro ⟨hkeeps, hrest⟩
          exact ⟨hentry.mp hkeeps, (ih hkeeps.sound).1.mp hrest⟩
        · rintro ⟨hfits, hrest⟩
          exact ⟨hentry.mpr hfits, (ih (hentry.mpr hfits).sound).1.mpr hrest⟩
      · rintro ⟨hfits, hrest⟩
        exact (ih (hentry.mpr hfits).sound).2 hrest

theorem sound_new : Sound CatalogStore.new.catalogState
  := by
  apply sound_of_relations
  · intro name d hd
    simp [CatalogStore.new, CatalogStore.catalogState, CatalogState.default] at hd
  · intro key r hr
    simp [CatalogStore.new, CatalogStore.catalogState, CatalogState.default] at hr

/-- A table in a schema that is not `public`. -/
def rawTable : CatalogRelation :=
  { database := "sales"
    schema := "raw"
    name := "t"
    kind := .table
    definitionSql := none
    storagePath := none
    externalFormat := none
    columns := []
    constraints := []
    indexes := [] }

/-- A log that creates a database, a schema and a table. -/
def rawLog : List Entry :=
  [sampleEntry 0 (.normal (.createDatabase "sales")),
   sampleEntry 1 (.normal (.createSchema (some "sales") "raw")),
   sampleEntry 2 (.normal (.registerRelation rawTable))]

theorem log_keeps_rawLog : AtEveryEntry Entry.Keeps rawLog CatalogStore.new
  := by
  apply (log_keeps_iff sound_new rawLog).1.mpr
  refine ⟨?_, trivial, ?_, trivial⟩
  · intro d hd
    simp [CatalogStore.new, CatalogStore.catalogState, CatalogState.default] at hd
  · refine ⟨⟨_, rfl, by decide⟩, List.nodup_nil, ?_⟩
    intro r hr
    have hnone : ((CatalogStore.new.applyAll (rawLog.take 2)).catalogState.relations[
        rawTable.key]?).isNone = true := by decide
    have hsome : (CatalogStore.new.applyAll (rawLog.take 2)).catalogState.relations[rawTable.key]?
        = some r := hr
    rw [hsome] at hnone
    cases hnone

/-- Creating the database again takes the schema away from under the table. -/
theorem not_log_keeps :
  ¬ ∀ (store : CatalogStore) (log : List Entry), Sound store.catalogState →
    AtEveryEntry Entry.Keeps log store
      ∧ Sound (store.applyToStateMachine log).1.catalogState
  := by
  intro h
  have hsound := (h CatalogStore.new (rawLog ++ [sampleEntry 3 (.normal (.createDatabase "sales"))])
    sound_new).2
  obtain ⟨d, hd, hschema⟩ := hsound.coherent.schema_exists "sales.raw.t" rawTable
    (by decide)
  have hlost : (((CatalogStore.new.applyToStateMachine
      (rawLog ++ [sampleEntry 3 (.normal (.createDatabase "sales"))])).1.catalogState.databases[
        rawTable.database]?).map (·.schemas.contains "raw")) = some false := by decide
  rw [hd, Option.map_some, Option.some.injEq] at hlost
  exact absurd (hschema.symm.trans hlost) (by decide)

end Raft
