import AnalyticsDB.Engine.ViewExpansion

/-!
# Views over runs

The text of a view is resolved anew at each use, in the session that uses it.  So what its names
denote changes when a relation is renamed or dropped under them, or gets one of their names, and
differs between sessions; and when a relation is given a name that its own definition reads, the
expansion goes on forever.  What is proved is that this is all: through operations that neither give
a relation a name that some text mentions nor disturb a name that a view reads, every expansion
finishes, and a view keeps referring to the relations it referred to.
-/

namespace Rewriter

open Deep

/-- The relations of a catalogue. -/
def stored (state : CatalogState) : List CatalogRelation := state.relations.toList.map (·.2)

/-- The key that a name of a view stands for in the schema of the view. -/
def ownKey (view : CatalogRelation) (idents : List String) : Option String :=
  (nameOf idents).map (fun (database, schema, table) =>
    relationKey (database.getD view.database) (schema.getD view.schema) table)

/-- The key of the relation that a name of a view denotes in the schema of the view. -/
def denoted (state : CatalogState) (view : CatalogRelation) (idents : List String) :
    Option String :=
  (ownKey view idents).filter (state.relations.contains ·)

/-- A session reads a name as the schema of a view does: it is in this schema, as far as the name
leaves it open. -/
def readsAs (session : SessionContext) (view : CatalogRelation) (idents : List String) : Bool :=
  match nameOf idents with
  | none => true
  | some (database, schema, _) =>
    (database.isSome || session.database = view.database)
      && (schema.isSome || session.schema = view.schema)

/-! ### The operations that disturb no view -/

section

variable (session : SessionContext) (op : ControlOp) (state : CatalogState)

/-- Some relation gets a name that the parts of a name may stand for, and did not have one
before. -/
def gainsName (idents : List String) : Bool :=
  (op.creates session).any (spells idents)
    || (stored state).any (fun r =>
      (op.becomes session r).any (fun r' => spells idents r' && !spells idents r))

/-- No relation leaves a key or comes to it. -/
def sparesKey (key : String) : Bool :=
  (stored state).all (fun r =>
      match op.becomes session r with
      | none => r.key ≠ key
      | some r' => r' = r || (r.key ≠ key && r'.key ≠ key))
    && (op.creates session).all (fun created => created.key ≠ key)

/-- The operation gives no relation a name that a text mentions, and for every view that it does not
drop it spares the names that it does not carry along with the view. -/
def keepsViews (dialect : Dialect) : Bool :=
  (stored state ++ (op.creates session).toList).all (fun text =>
      (dialect.mentions text).all (fun idents => !gainsName session op state idents))
    && (stored state).all (fun view => (op.becomes session view).all (fun view' =>
      (dialect.bodyNames view).all (fun idents => ownKey view' idents ≠ ownKey view idents
        || (ownKey view idents).all (sparesKey session op state))))

end

/-- An operation on names that disturbs no view, or that does nothing to the relations. -/
def ViewSafe (o : Outside) (dialect : Dialect) (call : SessionContext × ControlOp) (w : World) :
    Prop :=
  call.2.onNames = true
    ∧ (Unmoved o call w ∨ keepsViews call.1 call.2 w.catalog dialect = true)

instance (o : Outside) (dialect : Dialect) (call : SessionContext × ControlOp) (w : World) :
    Decidable (ViewSafe o dialect call w) :=
  inferInstanceAs (Decidable (_ ∧ _))

section

variable {session : SessionContext} {op : ControlOp} {state state' : CatalogState}
  {dialect : Dialect}

theorem mem_stored {r : CatalogRelation} :
  r ∈ stored state ↔ ∃ key : String, state.relations[key]? = some r
  := by
  constructor
  · intro hr
    obtain ⟨⟨key, _⟩, hentry, rfl⟩ := List.mem_map.mp hr
    exact ⟨key, Std.ExtTreeMap.mem_toList_iff_getElem?_eq_some.mp hentry⟩
  · rintro ⟨key, hr⟩
    exact List.mem_map.mpr ⟨(key, r), Std.ExtTreeMap.mem_toList_iff_getElem?_eq_some.mpr hr, rfl⟩

/-- A text does not gain a name. -/
theorem spells_of_not_gainsName {idents : List String}
    (h : gainsName session op state idents = false)
    {r r' : CatalogRelation} (hr : r ∈ stored state) (hbecomes : op.becomes session r = some r')
    (hspells : spells idents r' = true) :
  spells idents r = true
  := by
  rw [gainsName, Bool.or_eq_false_iff, List.any_eq_false] at h
  have hnot := h.2 r hr
  rw [hbecomes, Option.any_some, hspells, Bool.true_and, Bool.not_eq_true, Bool.not_eq_false']
    at hnot
  exact hnot

theorem spells_created {idents : List String} (h : gainsName session op state idents = false)
    {created : CatalogRelation} (hcreates : op.creates session = some created) :
  spells idents created = false
  := by
  rw [gainsName, Bool.or_eq_false_iff, hcreates, Option.any_some] at h
  exact h.1

end

/-! ### References stay well founded -/

section

variable {session : SessionContext} {op : ControlOp} {state state' : CatalogState}
  {dialect : Dialect}

/-- A relation with the same texts mentions the same names. -/
theorem mentions_congr {r r' : CatalogRelation} (h : r'.kind = r.kind
    ∧ r'.definitionSql = r.definitionSql ∧ r'.columns = r.columns) :
  dialect.mentions r' = dialect.mentions r
  := by
  obtain ⟨hkind, hdefinition, hcolumns⟩ := h
  simp only [Dialect.mentions, Dialect.textNames, Dialect.definitionNames, hkind, hdefinition,
    hcolumns]

theorem bodyNames_congr {r r' : CatalogRelation} (hkind : r'.kind = r.kind)
    (hdefinition : r'.definitionSql = r.definitionSql) :
  dialect.bodyNames r' = dialect.bodyNames r
  := by
  simp only [Dialect.bodyNames, Dialect.definitionNames, hkind, hdefinition]

/-- The texts of the relations, and of the one that is created, gain no name. -/
theorem not_gainsName (h : keepsViews session op state dialect = true) {text : CatalogRelation}
    (htext : text ∈ stored state ∨ op.creates session = some text) {idents : List String}
    (hidents : idents ∈ dialect.mentions text) :
  gainsName session op state idents = false
  := by
  rw [keepsViews, Bool.and_eq_true, List.all_eq_true] at h
  have hmem : text ∈ stored state ++ (op.creates session).toList := by
    rw [List.mem_append, Option.mem_toList]
    exact htext
  have hall := List.all_eq_true.mp (h.1 text hmem) idents hidents
  rw [Bool.not_eq_true'] at hall
  exact hall

/-- From no relation does a chain of references go on forever. -/
def RefersWell (dialect : Dialect) (state : CatalogState) : Prop :=
  ∀ r ∈ stored state, Acc (Refers dialect state) r

/-- What refers to a relation after an operation that gives no relation a mentioned name referred to
it before.  The induction is on the references of the relation before. -/
theorem acc_becomes (hns : state.Namespaced) (hrelocates : op.Relocates session state state')
    (hkeeps : keepsViews session op state dialect = true) {r r' : CatalogRelation}
    (hacc : Acc (Refers dialect state) r) (hr : r ∈ stored state)
    (hbecomes : op.becomes session r = some r') :
  Acc (Refers dialect state') r'
  := by
  induction hacc generalizing r' with
  | intro r _ ih =>
      constructor
      rintro other ⟨hother, idents, hidents, hspells⟩
      rw [mentions_congr (op.becomes_texts hbecomes)] at hidents
      have hgains := not_gainsName hkeeps (.inl hr) hidents
      obtain ⟨k, r₁, hr₁, hbecomes₁, -⟩ | ⟨hcreates, -⟩ := (hrelocates.entries _ other).mp hother
      · have hmem : r₁ ∈ stored state := mem_stored.mpr ⟨k, hr₁⟩
        refine ih r₁ ⟨?_, idents, hidents, ?_⟩ hmem hbecomes₁
        · rw [← hns.key_eq hr₁]
          exact hr₁
        · exact spells_of_not_gainsName hgains hmem hbecomes₁ hspells
      · rw [spells_created hgains hcreates] at hspells
        cases hspells

/-- An operation that gives no relation a mentioned name makes no chain of references that goes on
forever. -/
theorem RefersWell.relocate (hns : state.Namespaced)
    (hrelocates : op.Relocates session state state')
    (hkeeps : keepsViews session op state dialect = true) (h : RefersWell dialect state) :
  RefersWell dialect state'
  := by
  have hmoved : ∀ (key : String) (r r' : CatalogRelation), state.relations[key]? = some r →
      op.becomes session r = some r' → Acc (Refers dialect state') r' := by
    intro key r r' hr hbecomes
    have hmem : r ∈ stored state := mem_stored.mpr ⟨key, hr⟩
    exact acc_becomes hns hrelocates hkeeps (h r hmem) hmem hbecomes
  intro r' hr'
  obtain ⟨key, hr'⟩ := mem_stored.mp hr'
  obtain ⟨k, r, hr, hbecomes, -⟩ | ⟨hcreates, -⟩ := (hrelocates.entries _ r').mp hr'
  · exact hmoved k r r' hr hbecomes
  · -- what the created relation refers to was there before
    constructor
    rintro other ⟨hother, idents, hidents, hspells⟩
    have hgains := not_gainsName hkeeps (.inr hcreates) hidents
    obtain ⟨k, r, hr, hbecomes, -⟩ | ⟨hcreates', -⟩ := (hrelocates.entries _ other).mp hother
    · exact hmoved k r other hr hbecomes
    · rw [spells_created hgains hcreates'] at hspells
      cases hspells

theorem RefersWell.of_relations_eq (hrelations : state'.relations = state.relations)
    (h : RefersWell dialect state) :
  RefersWell dialect state'
  := by
  have hrefers : Refers dialect state' = Refers dialect state := by
    funext r' r
    rw [Refers, Refers, hrelations]
  intro r hr
  rw [hrefers]
  apply h
  rw [stored, ← hrelations]
  exact hr

end

/-! ### Names keep what they denote -/

section

variable {session : SessionContext} {op : ControlOp} {state state' : CatalogState}
  {dialect : Dialect}

/-- A name denotes what is stored under its key. -/
theorem denoted_eq_some {view : CatalogRelation} {idents : List String} {key : String} :
  denoted state view idents = some key
    ↔ ownKey view idents = some key ∧ ∃ r, state.relations[key]? = some r
  := by
  rw [denoted, Option.filter_eq_some_iff, Std.ExtTreeMap.contains_eq_isSome_getElem?,
    Option.isSome_iff_exists]

/-- In a session that reads a name as the schema of the view does, it finds what it denotes
there. -/
theorem findIn_readsAs {w : World} (hns : w.catalog.Namespaced)
    (hsession : validateSession w.catalog session = .ok ()) {view : CatalogRelation}
    {idents : List String} (h : readsAs session view idents = true) :
  (findIn w session idents).map CatalogRelation.key = denoted w.catalog view idents
  := by
  have hkey : ownKey view idents = (nameOf idents).map (fun (database, schema, table) =>
      relationKey (database.getD session.database) (schema.getD session.schema) table) := by
    unfold readsAs at h
    unfold ownKey
    cases hname : nameOf idents with
    | none => rfl
    | some parts =>
        obtain ⟨database, schema, table⟩ := parts
        simp only [hname, Bool.and_eq_true, Bool.or_eq_true, decide_eq_true_iff] at h
        obtain ⟨hdatabase, hschema⟩ := h
        have hgetD : ∀ (part : Option String) (here there : String),
            part.isSome = true ∨ here = there → part.getD there = part.getD here := by
          rintro (_ | part) here there (hsome | rfl)
          · cases hsome
          · rfl
          · rfl
          · rfl
        simp only [Option.map_some, hgetD _ _ _ hdatabase, hgetD _ _ _ hschema]
  apply Option.ext
  intro key
  rw [Option.map_eq_some_iff, denoted_eq_some, hkey, Option.map_eq_some_iff]
  constructor
  · rintro ⟨r, hfound, rfl⟩
    obtain ⟨-, database, schema, table, hname, hr⟩ := findIn_eq_some.mp hfound
    rw [← hns.key_eq hr]
    exact ⟨⟨_, hname, rfl⟩, r, hr⟩
  · rintro ⟨⟨⟨database, schema, table⟩, hname, rfl⟩, r, hr⟩
    exact ⟨r, findIn_eq_some.mpr ⟨hsession, database, schema, table, hname, hr⟩,
      (hns.key_eq hr).symm⟩

/-- Where a relation goes, by its key. -/
def whither (session : SessionContext) (op : ControlOp) (state : CatalogState) (key : String) :
    Option String :=
  (state.relations[key]?.bind (op.becomes session)).map CatalogRelation.key

theorem whither_of_found {key : String} {r : CatalogRelation}
    (hr : state.relations[key]? = some r) :
  whither session op state key = (op.becomes session r).map CatalogRelation.key
  := by
  rw [whither, hr, Option.bind_some]

/-- A name whose key is spared denotes what it denoted. -/
theorem denoted_of_spared (hns : state.Namespaced) (hrelocates : op.Relocates session state state')
    {view view' : CatalogRelation} {idents : List String}
    (hsame : ownKey view' idents = ownKey view idents)
    (hspared : (ownKey view idents).all (sparesKey session op state) = true) :
  denoted state' view' idents = (denoted state view idents).bind (whither session op state)
  := by
  rw [denoted, denoted, hsame]
  cases hkey : ownKey view idents with
  | none => rfl
  | some key =>
      rw [hkey, Option.all_some, sparesKey, Bool.and_eq_true, List.all_eq_true] at hspared
      obtain ⟨hspared, hcreated⟩ := hspared
      cases hr : state.relations[key]? with
      | some r =>
          have hstays := hspared r (mem_stored.mpr ⟨key, hr⟩)
          have hbecomes : op.becomes session r = some r := by
            cases hbecomes : op.becomes session r with
            | none => simp [hbecomes, ← hns.key_eq hr] at hstays
            | some r' => simpa [hbecomes, ← hns.key_eq hr] using hstays
          have hr' : state'.relations[key]? = some r :=
            (hrelocates.entries key r).mpr (.inl ⟨key, r, hr, hbecomes, hns.key_eq hr⟩)
          simp [Option.filter, Std.ExtTreeMap.contains_eq_isSome_getElem?, hr, hr', whither,
            hbecomes,
            ← hns.key_eq hr]
      | none =>
          have hnone : state'.relations[key]? = none := by
            apply Option.eq_none_iff_forall_ne_some.mpr
            intro r' hr'
            obtain ⟨k, r, hold, hbecomes, rfl⟩ | ⟨hcreates, rfl⟩ := (hrelocates.entries key r').mp
              hr'
            · have hstays := hspared r (mem_stored.mpr ⟨k, hold⟩)
              simp only [hbecomes, Bool.or_eq_true, decide_eq_true_iff, Bool.and_eq_true, ne_eq,
                not_true, and_false, or_false] at hstays
              rw [hstays, ← hns.key_eq hold, hold] at hr
              cases hr
            · simp [hcreates] at hcreated
          simp [Option.filter, Std.ExtTreeMap.contains_eq_isSome_getElem?, hr, hnone]

/-- A name whose relation is carried along with its view denotes that relation. -/
theorem denoted_of_moved (hns : state.Namespaced) (hns' : state'.Namespaced)
    (hrelocates : op.Relocates session state state') (hcreates : op.creates session = none)
    {view view' : CatalogRelation} {idents : List String} {d s t d' s' : String}
    (hown : ownKey view idents = some (relationKey d s t))
    (hown' : ownKey view' idents = some (relationKey d' s' t))
    (hforth : ∀ r : CatalogRelation, r.database = d → r.schema = s → r.name = t →
      op.becomes session r = some { r with database := d', schema := s' })
    (hback : ∀ (key : String) (r r' : CatalogRelation), state.relations[key]? = some r →
      op.becomes session r = some r' → r'.database = d' → r'.schema = s' → r'.name = t →
      r.database = d ∧ r.schema = s ∧ r.name = t) :
  denoted state' view' idents = (denoted state view idents).bind (whither session op state)
  := by
  rw [denoted, denoted, hown, hown']
  cases hr : state.relations[relationKey d s t]? with
  | some r =>
      obtain ⟨hd, hs, ht⟩ := hns.plain_of_relation hr
      obtain ⟨rfl, rfl, rfl⟩ := relationKey_inj hd hs ht (hns.key_eq hr)
      have hbecomes := hforth r rfl rfl rfl
      have hr' := (hrelocates.entries (relationKey d' s' r.name) _).mpr
        (.inl ⟨_, r, hr, hbecomes, rfl⟩)
      simp [Option.filter, Std.ExtTreeMap.contains_eq_isSome_getElem?, hr, hr', whither, hbecomes,
        CatalogRelation.key]
  | none =>
      have hnone : state'.relations[relationKey d' s' t]? = none := by
        apply Option.eq_none_iff_forall_ne_some.mpr
        intro r' hr'
        obtain ⟨hd, hs, ht⟩ := hns'.plain_of_relation hr'
        obtain ⟨hdatabase, hschema, hname⟩ := relationKey_inj hd hs ht (hns'.key_eq hr')
        obtain ⟨k, r, hold, hbecomes, -⟩ | ⟨hcreates', -⟩ := (hrelocates.entries _ r').mp hr'
        · obtain ⟨rfl, rfl, rfl⟩ :=
            hback k r r' hold hbecomes hdatabase.symm hschema.symm hname.symm
          have hkey := hns.key_eq hold
          rw [CatalogRelation.key] at hkey
          rw [← hkey, hold] at hr
          cases hr
        · rw [hcreates] at hcreates'
          cases hcreates'
      simp [Option.filter, Std.ExtTreeMap.contains_eq_isSome_getElem?, hr, hnone]

/-- A name that gives a database gives a schema too. -/
theorem nameOf_schema {idents : List String} {database : Option String} {table : String}
    (h : nameOf idents = some (database, none, table)) :
  database = none
  := by
  unfold nameOf at h
  split at h
  · cases h
  · cases h
    rfl
  · cases h
  · cases h
  · cases h

/-- A name that an operation carries along with its view denotes the relation that it denoted. -/
theorem denoted_of_carried (hns : state.Namespaced) (hns' : state'.Namespaced)
    (hrelocates : op.Relocates session state state') {view view' : CatalogRelation}
    (hbecomes : op.becomes session view = some view') {idents : List String}
    (hcarried : ownKey view' idents ≠ ownKey view idents) :
  denoted state' view' idents = (denoted state view idents).bind (whither session op state)
  := by
  obtain ⟨⟨database, schema, table⟩, hname⟩ : ∃ parts, nameOf idents = some parts := by
    cases hname : nameOf idents with
    | none => simp [ownKey, hname] at hcarried
    | some parts => exact ⟨parts, rfl⟩
  have hown : ∀ r : CatalogRelation, ownKey r idents
      = some (relationKey (database.getD r.database) (schema.getD r.schema) table) := by
    intro r
    rw [ownKey, hname]
    rfl
  rw [hown, hown] at hcarried
  cases op with
  | renameSchema database' name newName =>
      simp only [ControlOp.becomes] at hbecomes
      split at hbecomes
      · rename_i hview
        cases hbecomes
        -- the name leaves the schema open, and so the database
        cases schema with
        | some schema => exact absurd rfl hcarried
        | none =>
            obtain rfl := nameOf_schema hname
            refine denoted_of_moved hns hns' hrelocates rfl (hown view) (hown _) ?_ ?_
            · intro r hd hs _
              have hcovers : r.database = database'.getD session.database ∧ r.schema = name :=
                ⟨hd.trans hview.1, hs.trans hview.2⟩
              simp only [ControlOp.becomes, if_pos hcovers]
              rw [← hd]
              rfl
            · intro key r r' hr hbecomes hd hs ht
              simp only [ControlOp.becomes] at hbecomes
              split at hbecomes
              · rename_i hcovers
                cases hbecomes
                exact ⟨hd, hcovers.2.trans hview.2.symm, ht⟩
              · cases hbecomes
                have hvacant := hrelocates.vacant key r hr
                simp [ControlOp.enters, hd, hs, hview.1] at hvacant
      · cases hbecomes
        exact absurd rfl hcarried
  | alterDatabase name operation =>
      cases operation with
      | rename newName =>
          simp only [ControlOp.becomes] at hbecomes
          split at hbecomes
          · rename_i hview
            cases hbecomes
            cases database with
            | some database => exact absurd rfl hcarried
            | none =>
                refine denoted_of_moved hns hns' hrelocates rfl (hown view) (hown _) ?_ ?_
                · intro r hd hs _
                  have hcovers : r.database = name := hd.trans hview
                  simp only [ControlOp.becomes, if_pos hcovers]
                  rw [← hs]
                  rfl
                · intro key r r' hr hbecomes hd hs ht
                  simp only [ControlOp.becomes] at hbecomes
                  split at hbecomes
                  · rename_i hcovers
                    cases hbecomes
                    exact ⟨hcovers.trans hview.symm, hs, ht⟩
                  · cases hbecomes
                    have hvacant := hrelocates.vacant key r hr
                    simp [ControlOp.enters, hd] at hvacant
          · cases hbecomes
            exact absurd rfl hcarried
      | ownerTo newOwner | setParam parameter value =>
          cases hbecomes
          exact absurd rfl hcarried
  | renameRelation =>
      simp only [ControlOp.becomes] at hbecomes
      split at hbecomes
      · cases hbecomes
        exact absurd rfl hcarried
      · cases hbecomes
        exact absurd rfl hcarried
  | dropDatabase | dropSchema | dropRelation =>
      simp only [ControlOp.becomes] at hbecomes
      split at hbecomes
      · cases hbecomes
      · cases hbecomes
        exact absurd rfl hcarried
  | _ =>
      cases hbecomes
      exact absurd rfl hcarried

/-- Through an operation that keeps the views a name of a view denotes the same relation. -/
theorem denoted_relocate (hns : state.Namespaced) (hns' : state'.Namespaced)
    (hrelocates : op.Relocates session state state')
    (hkeeps : keepsViews session op state dialect = true) {view view' : CatalogRelation}
    (hview : view ∈ stored state) (hbecomes : op.becomes session view = some view')
    {idents : List String} (hidents : idents ∈ dialect.bodyNames view) :
  denoted state' view' idents = (denoted state view idents).bind (whither session op state)
  := by
  by_cases hsame : ownKey view' idents = ownKey view idents
  · apply denoted_of_spared hns hrelocates hsame
    rw [keepsViews, Bool.and_eq_true] at hkeeps
    have hspares := List.all_eq_true.mp hkeeps.2 view hview
    rw [hbecomes, Option.all_some] at hspares
    simpa [hsame] using List.all_eq_true.mp hspares idents hidents
  · exact denoted_of_carried hns hns' hrelocates hbecomes hsame

end

/-! ### Every run -/

/-- Every view that is still there has the definition that it had, and each of its names denotes in
its schema the relation that it denoted. -/
def KeepsDenoted (dialect : Dialect) (state state' : CatalogState)
    (whither : String → Option String) : Prop :=
  ∀ (key key' : String) (view : CatalogRelation), state.relations[key]? = some view →
    whither key = some key' → ∃ view', state'.relations[key']? = some view'
      ∧ view'.kind = view.kind ∧ view'.definitionSql = view.definitionSql
      ∧ ∀ idents ∈ dialect.bodyNames view,
        denoted state' view' idents = (denoted state view idents).bind whither

section

variable {o : Outside} {dialect : Dialect} {call : SessionContext × ControlOp} {w : World}

/-- Where the relations stay as they are, nothing changes. -/
theorem KeepsDenoted.of_relations_eq {state state' : CatalogState}
    (hrelations : state'.relations = state.relations) :
  KeepsDenoted dialect state state' some
  := by
  intro key key' view hview hkey
  cases hkey
  refine ⟨view, by rw [hrelations, hview], rfl, rfl, ?_⟩
  intro idents _
  rw [Option.bind_fun_some, denoted, denoted, hrelations]

theorem KeepsDenoted.trans {state state' state'' : CatalogState}
    {whither whither' : String → Option String} (h : KeepsDenoted dialect state state' whither)
    (h' : KeepsDenoted dialect state' state'' whither') :
  KeepsDenoted dialect state state'' (fun key => (whither key).bind whither')
  := by
  intro key key'' view hview hkey
  obtain ⟨key', hkey, hkey'⟩ := Option.bind_eq_some_iff.mp hkey
  obtain ⟨view', hview', hkind, hdefinition, hdenoted⟩ := h key key' view hview hkey
  obtain ⟨view'', hview'', hkind', hdefinition', hdenoted'⟩ := h' key' key'' view' hview' hkey'
  refine ⟨view'', hview'', hkind'.trans hkind, hdefinition'.trans hdefinition, ?_⟩
  intro idents hidents
  rw [hdenoted' idents (by rwa [bodyNames_congr hkind hdefinition]), hdenoted idents hidents,
    Option.bind_assoc]

/-- What carries the views through a run. -/
structure ViewInvariant (dialect : Dialect) (w : World) : Prop where
  namespaced : w.catalog.Namespaced
  refers : RefersWell dialect w.catalog

/-- An operation that is safe for the views keeps the invariant, and what the views denote. -/
theorem ViewInvariant.step (h : ViewInvariant dialect w) (hsafe : ViewSafe o dialect call w) :
  ViewInvariant dialect (performedOp o call w)
    ∧ KeepsDenoted dialect w.catalog (performedOp o call w).catalog (follow o call w)
  := by
  have hns' : (performedOp o call w).catalog.Namespaced := performedOp_namespaced h.namespaced
  by_cases hunmoved : Unmoved o call w
  · have hrelations := hunmoved.relations_eq
    refine ⟨⟨hns', h.refers.of_relations_eq hrelations⟩, ?_⟩
    have hfollow : follow o call w = some := by
      funext key
      rw [follow, if_pos hunmoved]
    rw [hfollow]
    exact .of_relations_eq hrelations
  · have hrelocates := relocates_of_not_unmoved h.namespaced hsafe.1 hunmoved
    have hkeeps := hsafe.2.resolve_left hunmoved
    refine ⟨⟨hns', h.refers.relocate h.namespaced hrelocates hkeeps⟩, ?_⟩
    have hfollow : follow o call w = whither call.1 call.2 w.catalog := by
      funext key
      rw [follow, if_neg hunmoved]
      rfl
    rw [hfollow]
    intro key key' view hview hkey
    rw [whither_of_found hview, Option.map_eq_some_iff] at hkey
    obtain ⟨view', hbecomes, rfl⟩ := hkey
    obtain ⟨hkind, hdefinition, -⟩ := call.2.becomes_texts hbecomes
    refine ⟨view', (hrelocates.entries _ view').mpr (.inl ⟨key, view, hview, hbecomes, rfl⟩), hkind,
      hdefinition, ?_⟩
    intro idents hidents
    exact denoted_relocate h.namespaced hns' hrelocates hkeeps (mem_stored.mpr ⟨key, hview⟩)
      hbecomes
      hidents

/-- A list of operations that are safe for the views keeps the invariant, and what the views
denote. -/
theorem ViewInvariant.run (h : ViewInvariant dialect w) (calls : List (SessionContext × ControlOp))
    (hcalls : Run.AllAllowed (performedOp o) (ViewSafe o dialect) calls w) :
  ViewInvariant dialect (Run.performAll (performedOp o) calls w)
    ∧ KeepsDenoted dialect w.catalog (Run.performAll (performedOp o) calls w).catalog
      (followAll o calls w)
  := by
  induction calls generalizing w with
  | nil => exact ⟨h, .of_relations_eq rfl⟩
  | cons call calls ih =>
      obtain ⟨hstep, hdenoted⟩ := h.step hcalls.1
      obtain ⟨hrun, hdenoted'⟩ := ih hstep hcalls.2
      exact ⟨hrun, hdenoted.trans hdenoted'⟩

theorem Initial.viewInvariant (h : Initial w) :
  ViewInvariant dialect w
  := by
  have hempty : ∀ users, ViewInvariant dialect { w with catalog := initialState users } := by
    intro users
    refine ⟨initialState_namespaced users, ?_⟩
    intro r hr
    obtain ⟨key, hr⟩ := mem_stored.mp hr
    simp [initialState] at hr
  obtain ⟨credentials, now, hw | hw⟩ := h
  · have hw' : w = { w with catalog := bootstrapState credentials now } := by rw [← hw]
    rw [hw']
    apply hempty
  · have hw' : w = { w with catalog := freshInitState credentials now } := by rw [← hw]
    rw [hw']
    apply hempty

/-- Every query is rewritten, and every view of `w₀` that is still there at `w` has the definition
that it had; a session that reads its names like this finds the relations that they denoted in the
schema of the view. -/
structure ViewsStable (dialect : Dialect)
    (reads : SessionContext → CatalogRelation → List String → Bool) (w₀ w : World)
    (whither : String → Option String) : Prop where
  terminates : ∀ session query, ∃ bound, ∀ depth ≥ bound,
    Finishes (rewriteQuery (dialect.envAt w session depth) query) (fun _ => True)
  refers : ∀ (key key' : String) (view : CatalogRelation), w₀.catalog.relations[key]? = some view →
    whither key = some key' → ∃ view', w.catalog.relations[key']? = some view'
      ∧ view'.kind = view.kind ∧ view'.definitionSql = view.definitionSql
      ∧ ∀ session, validateSession w.catalog session = .ok () →
        ∀ idents ∈ dialect.bodyNames view', reads session view' idents = true →
          (findIn w session idents).map CatalogRelation.key
            = (denoted w₀.catalog view idents).bind whither

/-- In every run of operations on databases, schemas, tables and views, each of which changes no
relation or gives no relation a name that a text mentions and disturbs no name that a view reads,
every query is rewritten in every session; and every view refers, in the sessions that read its
names as its own schema does, to the relations that its names denoted at any time before, such as
when it was created. -/
theorem reached_viewsStable (o : Outside) (dialect : Dialect) {w₀ : World}
    (h : Run.Reachable Initial (Run.byOps (performedOp o) (ViewSafe o dialect)) w₀)
    (calls : List (SessionContext × ControlOp))
    (hcalls : Run.AllAllowed (performedOp o) (ViewSafe o dialect) calls w₀) :
  ViewsStable dialect readsAs w₀ (Run.performAll (performedOp o) calls w₀) (followAll o calls w₀)
  := by
  have hinvariant : ViewInvariant dialect w₀ := by
    refine Run.Reachable.invariant (P := ViewInvariant dialect) (fun w => Initial.viewInvariant) ?_
      h
    rintro w w' hw ⟨call, hsafe, rfl⟩
    exact (hw.step hsafe).1
  obtain ⟨⟨hns, hrefers⟩, hdenoted⟩ := hinvariant.run calls hcalls
  constructor
  · intro session query
    apply rewriteQuery_finishes_of_acc session hns
    intro r hr
    exact hrefers r (mem_stored.mpr ⟨r.key, hr⟩)
  · intro key key' view hview hkey
    obtain ⟨view', hview', hkind, hdefinition, hnames⟩ := hdenoted key key' view hview hkey
    refine ⟨view', hview', hkind, hdefinition, ?_⟩
    intro session hsession idents hidents hreads
    rw [findIn_readsAs hns hsession hreads]
    apply hnames
    rwa [← bodyNames_congr hkind hdefinition]

end

/-! ### A view that moves with its table, and views that do not keep to theirs -/

/-- All columns of a table. -/
def selectFrom (name : String) : Query :=
  .mk (.select [.mk "" (.table [name] none false) none] [.wildcard] none [] none) [] []

/-- A parser of such queries. -/
def sampleDialect : Dialect :=
  { parse := fun text =>
      if startsWith text "SELECT * FROM " then
        .ok [.query (selectFrom (String.ofList (text.toList.drop 14)))]
      else .error "sql parser error"
    lower := fun name => name }

open Installed

/-- A schema with a table and a view of it. -/
def viewed : List (SessionContext × ControlOp) :=
  [(session, .createSchema none "s"),
    (session, .registerManagedTable none (some "s") "t" "/data/t" columns []),
    (session, .registerView none (some "s") "v" "SELECT * FROM t" columns)]

/-- The schema is renamed. -/
def schemaRenamed : List (SessionContext × ControlOp) := [(session, .renameSchema none "s" "r")]

theorem reached_viewsStable_renamed :
  ViewsStable sampleDialect readsAs (Installed.after viewed)
      (Run.performAll (performedOp Outside.faultless) schemaRenamed (Installed.after viewed))
      (followAll Outside.faultless schemaRenamed (Installed.after viewed))
    ∧ followAll Outside.faultless schemaRenamed (Installed.after viewed) "postgres.s.v"
      = some "postgres.r.v"
  := by
  constructor
  · apply reached_viewsStable
    · have hviewed : Run.AllAllowed (performedOp Outside.faultless)
          (ViewSafe Outside.faultless sampleDialect) viewed World.bootstrap := by
        decide
      apply Run.Reachable.performAll (.start _) hviewed
      use fun _ => ⟨"", "", ""⟩, fun _ => 0
      left
      rfl
    · decide
  · decide

/-- A table and a view of it. -/
def selected : List (SessionContext × ControlOp) :=
  [(session, .registerManagedTable none none "a" "/data/a" columns []),
    (session, .registerView none none "v" "SELECT * FROM a" columns)]

/-- The table gets another name, and the view gets its old one. -/
def swapped : List (SessionContext × ControlOp) :=
  [(session, .renameRelation none none "a" "b"), (session, .renameRelation none none "v" "a")]

/-- A view of a table, and a table of that name in another schema. -/
def shadowed : List (SessionContext × ControlOp) :=
  [(session, .createSchema none "s"),
    (session, .registerManagedTable none none "t" "/data/t" columns []),
    (session, .registerView none none "v" "SELECT * FROM t" columns),
    (session, .registerManagedTable none (some "s") "t" "/data/u" columns [])]

/-- The view. -/
def shadowedView : CatalogRelation :=
  { database := "postgres", schema := "public", name := "v", kind := .view
    definitionSql := some "SELECT * FROM t", storagePath := none, externalFormat := none
    columns := columns, constraints := [], indexes := [] }

/-- A relation whose definition selects from itself. -/
def selfReferring : CatalogRelation :=
  { database := "postgres", schema := "public", name := "a", kind := .view
    definitionSql := some "SELECT * FROM a", storagePath := none, externalFormat := none
    columns := columns, constraints := [], indexes := [] }

/-- No depth is enough for a view that selects from itself. -/
theorem not_finishes_of_selfReferring {w : World} {session : SessionContext}
    (h : findIn w session ["a"] = some selfReferring) (depth : Nat) :
  ¬ Finishes (rewriteQuery (sampleDialect.envAt w session depth) (selectFrom "a")) (fun _ => True)
  := by
  -- rewriting the query expands the view
  have hexpands : ∀ depth, Finishes (rewriteQuery (sampleDialect.envAt w session depth)
      (selectFrom "a")) (fun _ => True) →
      Finishes ((sampleDialect.envAt w session depth).expand "SELECT * FROM a")
        (fun _ => True) := by
    intro depth hfinishes
    have hname : ["a"].map (sampleDialect.envAt w session depth).lower = ["a"] := by
      rw [envAt_lower]
      rfl
    have hfound : (sampleDialect.envAt w session depth).find ["a"] = some selfReferring := by
      rw [envAt_find]
      exact h
    have hsystem : (matchedPgCatalog ["a"]).bind systemColumns = none := by decide
    simp only [selectFrom, rewriteQuery, rewriteSetExpr, resolveSources, resolveTableSchemas,
      finishes_bind, Bool.false_eq_true, if_false, resolveTable, hname, hsystem, hfound,
      expandRelation, selfReferring] at hfinishes
    exact hfinishes.mono (fun _ _ => trivial)
  induction depth with
  | zero =>
      intro hfinishes
      exact not_finishes_tooDeep _ (hexpands 0 hfinishes)
  | succ depth ih =>
      intro hfinishes
      apply ih
      have hquery : sampleDialect.viewQuery "SELECT * FROM a" = .ok (some (selectFrom "a")) := by
        rfl
      have hexpanded := hexpands (depth + 1) hfinishes
      simp only [Dialect.envAt, hquery, finishes_bind] at hexpanded
      exact hexpanded.mono (fun _ _ => trivial)

/-- A table and a view of it are renamed, and the view of the table's name is expanded forever; and
another session finds another table in a view. -/
theorem not_reached_viewsStable :
  ¬ ViewsStable sampleDialect (fun _ _ _ => true) (Installed.after selected)
      (Run.performAll (performedOp Outside.faultless) swapped (Installed.after selected))
      (followAll Outside.faultless swapped (Installed.after selected))
    ∧ ¬ ViewsStable sampleDialect (fun _ _ _ => true) (Installed.after shadowed)
      (Installed.after shadowed) some
  := by
  constructor
  · intro h
    obtain ⟨bound, hbound⟩ := h.terminates session (selectFrom "a")
    refine not_finishes_of_selfReferring ?_ bound (hbound bound (Nat.le_refl bound))
    decide
  · intro h
    have hview : (Installed.after shadowed).catalog.relations["postgres.public.v"]?
        = some shadowedView := by
      decide
    obtain ⟨view', hview', -, -, hnames⟩ :=
      h.refers "postgres.public.v" "postgres.public.v" shadowedView hview rfl
    rw [hview] at hview'
    cases hview'
    have hsame := hnames { schema := "s" } (by decide) ["t"] (by decide) rfl
    revert hsame
    decide

end Rewriter
