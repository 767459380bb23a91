import AnalyticsDB.Control.Namespace
import AnalyticsDB.Control.TableEdits
import Mathlib.Data.List.Perm.Basic

/-!
# The tables of the system catalogue

The rows of `pg_class`, `pg_attribute`, `pg_index`, `pg_constraint` and `pg_attrdef` are generated
from the catalogue, each table by a scan of its own, and the oids in them are hashes of dotted
names.  The rewriter hashes the text of `'name'::regclass` again.  What is proved is when the oids
and the column numbers of the different tables agree, and when the text of a `regclass` has the oid
of the relation it resolves to.
-/

/-! ### Synthetic oids -/

/-- The bytes of a text. -/
def utf8Bytes (text : String) : List UInt8 := text.toList.flatMap String.utf8EncodeChar

/-- The bytes of a number, the lowest first. -/
def leBytes (width n : Nat) : List UInt8 :=
  (List.range width).map (fun i => UInt8.ofNat (n >>> (8 * i)))

/-- The hash of some bytes, moved above the oids that PostgreSQL reserves. -/
def syntheticOid (bytes : List UInt8) : UInt32 :=
  let hash := bytes.foldl (fun hash byte => (hash ^^^ byte.toUInt32) * 16777619) 2166136261
  if hash < 16384 then hash + 16384 else hash

def syntheticNamespaceOid (database schema : String) : UInt32 :=
  syntheticOid (utf8Bytes database ++ [46] ++ utf8Bytes schema)

def syntheticRelationOid (database schema name : String) : UInt32 :=
  syntheticOid (utf8Bytes database ++ [46] ++ utf8Bytes schema ++ [46] ++ utf8Bytes name)

def syntheticAttrdefOid (relOid : UInt32) (attnum : Int16) : UInt32 :=
  syntheticOid (leBytes 4 relOid.toNat ++ leBytes 2 attnum.toUInt16.toNat)

def syntheticConstraintOid (relOid : UInt32) (conname : String) : UInt32 :=
  syntheticOid (leBytes 4 relOid.toNat ++ utf8Bytes conname)

/-- The oid of a dotted name. -/
def nameOid (name : String) : UInt32 := syntheticOid (utf8Bytes name)

/-- The oid of a relation is that of its dotted name. -/
theorem syntheticRelationOid_eq (database schema name : String) :
  syntheticRelationOid database schema name = nameOid (relationKey database schema name)
  := by
  have hdot : utf8Bytes "." = [46] := by decide
  simp only [syntheticRelationOid, nameOid, relationKey, utf8Bytes, String.toList_append,
    List.flatMap_append] at hdot ⊢
  rw [hdot]

/-! ### The rows -/

/-- The relations of a database, in the order of their keys. -/
def CatalogState.relationsIn (state : CatalogState) (database : String) : List CatalogRelation :=
  (state.relations.toList.map (·.2)).filter (·.database = database)

structure PgClass where
  oid : UInt32
  relname : String
  relnamespace : UInt32
  relhasindex : Bool
  relkind : String
  relnatts : Int16

structure PgAttribute where
  attrelid : UInt32
  attname : String
  atttypid : UInt32
  attnum : Int16
  attnotnull : Bool
  atthasdef : Bool

structure PgIndex where
  indexrelid : UInt32
  indrelid : UInt32
  indnatts : Int16
  indisunique : Bool
  indisprimary : Bool

structure PgAttrdef where
  oid : UInt32
  adrelid : UInt32
  adnum : Int16
  adbin : String

structure PgConstraint where
  oid : UInt32
  conname : String
  connamespace : UInt32
  contype : String
  conrelid : UInt32
  confrelid : UInt32

namespace CatalogRelation

variable (r : CatalogRelation)

/-- The oid that each scan computes for the relation. -/
def oid : UInt32 := syntheticRelationOid r.database r.schema r.name

/-- The row of a relation in `pg_class`. -/
def classRow : PgClass :=
  { oid := r.oid
    relname := r.name
    relnamespace := syntheticNamespaceOid r.database r.schema
    relhasindex := !r.indexes.isEmpty
    relkind := match r.kind with
      | .table => "r"
      | .view => "v"
    relnatts := Int16.ofNat (r.columns.filter (·.name ≠ "_row_id")).length }

/-- The row of an index of a relation in `pg_class`. -/
def indexClassRow (index : CatalogIndex) : PgClass :=
  { oid := syntheticRelationOid r.database r.schema index.name
    relname := index.name
    relnamespace := syntheticNamespaceOid r.database r.schema
    relhasindex := false
    relkind := "i"
    relnatts := Int16.ofNat index.columns.length }

def classRows : List PgClass := r.classRow :: r.indexes.map r.indexClassRow

/-- The oid of a type, by its name in lower case. -/
def typeOid : String → UInt32
  | "bool" | "boolean" => 16
  | "int2" | "smallint" => 21
  | "int4" | "integer" | "int" => 23
  | "int8" | "bigint" => 20
  | "float4" | "real" => 700
  | "float8" | "double precision" | "double" => 701
  | _ => 25

/-- The rows of columns in `pg_attribute`, the next of which gets a number.  The hidden column gets
none. -/
def attributeRowsFrom (lower : String → String) (attrelid : UInt32) :
    Nat → List CatalogColumn → List PgAttribute
  | _, [] => []
  | attNum, col :: columns =>
    if col.name = "_row_id" then attributeRowsFrom lower attrelid attNum columns
    else
      { attrelid := attrelid
        attname := col.name
        atttypid := typeOid (lower col.dataType)
        attnum := Int16.ofNat attNum
        attnotnull := !col.nullable
        atthasdef := col.defaultValue.isSome } ::
        attributeRowsFrom lower attrelid (attNum + 1) columns

/-- The rows of a relation in `pg_attribute`. -/
def attributeRows (lower : String → String) : List PgAttribute :=
  attributeRowsFrom lower r.oid 1 r.columns

def indexRows : List PgIndex :=
  r.indexes.map (fun index =>
    { indexrelid := syntheticRelationOid r.database r.schema index.name
      indrelid := r.oid
      indnatts := Int16.ofNat index.columns.length
      indisunique := index.isUnique
      indisprimary := index.isPrimary })

/-- The row of the default of a column in `pg_attrdef`, by the position of the column. -/
def attrdefRow (idx : Nat) (default : String) : PgAttrdef :=
  { oid := syntheticAttrdefOid r.oid (Int16.ofNat (idx + 1))
    adrelid := r.oid
    adnum := Int16.ofNat (idx + 1)
    adbin := default }

def attrdefRows : List PgAttrdef :=
  r.columns.zipIdx.filterMap (fun (col, idx) => col.defaultValue.map (r.attrdefRow idx))

def constraintRow (constraint : CatalogTableConstraint) : PgConstraint :=
  { oid := syntheticConstraintOid r.oid constraint.name
    conname := constraint.name
    connamespace := syntheticNamespaceOid r.database r.schema
    contype := match constraint.kind with
      | .primaryKey => "p"
      | .foreignKey => "f"
      | .unique => "u"
    conrelid := r.oid
    confrelid := match constraint.referencedTable with
      | some table => syntheticRelationOid (constraint.referencedDatabase.getD r.database)
          (constraint.referencedSchema.getD r.schema) table
      | none => 0 }

theorem classRow_oid : r.classRow.oid = r.oid := by rw [classRow]

theorem indexClassRow_oid (index : CatalogIndex) :
  (r.indexClassRow index).oid = syntheticRelationOid r.database r.schema index.name
  := by rw [indexClassRow]

theorem attrdefRow_adrelid (idx : Nat) (default : String) :
  (r.attrdefRow idx default).adrelid = r.oid
  := by rw [attrdefRow]

theorem constraintRow_conrelid (constraint : CatalogTableConstraint) :
  (r.constraintRow constraint).conrelid = r.oid
  := by rw [constraintRow]

end CatalogRelation

section

variable (state : CatalogState) (session : SessionContext)

def pgClass : List PgClass :=
  (state.relationsIn session.database).flatMap CatalogRelation.classRows

def pgAttribute (lower : String → String) : List PgAttribute :=
  (state.relationsIn session.database).flatMap (CatalogRelation.attributeRows · lower)

def pgIndex : List PgIndex :=
  (state.relationsIn session.database).flatMap CatalogRelation.indexRows

def pgAttrdef : List PgAttrdef :=
  (state.relationsIn session.database).flatMap CatalogRelation.attrdefRows

def pgConstraint : List PgConstraint :=
  (state.relationsIn session.database).flatMap (fun r => r.constraints.map r.constraintRow)

end

/-! ### The text of a `regclass` -/

/-- The parts of a name between its dots. -/
def splitDots : List Char → List (List Char)
  | [] => [[]]
  | c :: rest =>
    if c = '.' then [] :: splitDots rest
    else
      match splitDots rest with
      | [] => [[c]]
      | part :: parts => (c :: part) :: parts

/-- The parts of a name between its dots. -/
def nameParts (name : String) : List String := (splitDots name.toList).map String.ofList

/-- The name that is hashed for the text of a `regclass`, in lower case. -/
def regclassName (lowerName : String) : String :=
  match nameParts lowerName with
  | [name] => if startsWith name "pg_" then "postgres.pg_catalog." ++ name else lowerName
  | [schema, _] => if startsWith schema "pg_" then "postgres." ++ lowerName else lowerName
  | _ => lowerName

def syntheticRelationOidFromName (lower : String → String) (name : String) : UInt32 :=
  nameOid (regclassName (lower name))

/-- The relation that a name resolves to in a session, as the rewriter finds it. -/
def resolveName (lower : String → String) (state : CatalogState) (session : SessionContext)
    (name : String) : Option CatalogRelation :=
  match (nameParts (lower name)).reverse with
  | [] => none
  | [table] => state.relations[relationKey session.database session.schema table]?
  | [table, schema] => state.relations[relationKey session.database schema table]?
  | [table, schema, database] => state.relations[relationKey database schema table]?
  | table :: schema :: _ => state.relations[relationKey session.database schema table]?

/-! ### What the tables have in common -/

section

variable (lower : String → String) (state : CatalogState) (session : SessionContext)

/-- The dotted names whose oids `pg_class` has. -/
def classNames : List String :=
  (state.relationsIn session.database).flatMap (fun r =>
    relationKey r.database r.schema r.name
      :: r.indexes.map (fun index => relationKey r.database r.schema index.name))

def classOids : List UInt32 := (pgClass state session).map (·.oid)

/-- How many columns before a position have numbers, and how many are hidden. -/
def visibleBefore (columns : List CatalogColumn) (idx : Nat) : Nat :=
  ((columns.take idx).filter (·.name ≠ "_row_id")).length

def hiddenBefore (columns : List CatalogColumn) (idx : Nat) : Nat :=
  ((columns.take idx).filter (·.name = "_row_id")).length

/-- The tables refer to each other: the oids in `pg_class` are distinct, the other tables refer to
these, every default to the row of its column, and the text of a `regclass` gets the oid of the
relation it resolves to. -/
structure CatalogConsistent (name : String) : Prop where
  class_oids : (classOids state session).Nodup
  index_oids : ∀ row ∈ pgIndex state session,
    row.indrelid ∈ classOids state session ∧ row.indexrelid ∈ classOids state session
  constraint_oids : ∀ row ∈ pgConstraint state session, row.conrelid ∈ classOids state session
  attrdef_oids : ∀ row ∈ pgAttrdef state session, row.adrelid ∈ classOids state session
  attrdef_columns : ∀ r ∈ state.relationsIn session.database, ∀ idx col default,
    r.columns[idx]? = some col → col.defaultValue = some default →
    ∃ row, (r.attributeRows lower)[visibleBefore r.columns idx]? = some row
      ∧ row.attname = col.name ∧ row.attrelid = (r.attrdefRow idx default).adrelid
      ∧ row.attnum = (r.attrdefRow idx default).adnum
  regclass : ∀ r, resolveName lower state session name = some r → r.database = session.database →
    syntheticRelationOidFromName lower name = r.oid

/-- No hidden column has a default, and none is before a column that has one; up to the width of
the numbers. -/
def DefaultsNumbered : Prop :=
  ∀ r ∈ state.relationsIn session.database, ∀ idx col,
    r.columns[idx]? = some col → col.defaultValue.isSome = true →
    col.name ≠ "_row_id" ∧ 65536 ∣ hiddenBefore r.columns idx

/-- The names present, those of `pg_class` and the one hashed for the text of a `regclass`, have
different oids. -/
def OidsApart (name : String) : Prop :=
  ∀ a ∈ regclassName (lower name) :: classNames state session,
    ∀ b ∈ regclassName (lower name) :: classNames state session, nameOid a = nameOid b → a = b

instance (name : String) : Decidable (OidsApart lower state session name) :=
  inferInstanceAs (Decidable (∀ a ∈ regclassName (lower name) :: classNames state session,
    ∀ b ∈ regclassName (lower name) :: classNames state session, nameOid a = nameOid b → a = b))

/-- The text of a `regclass` names the database and the schema, or is completed with those of the
session. -/
def regclassQualified (name : String) : Bool :=
  match nameParts (lower name) with
  | [table] => startsWith table "pg_" && session.database = "postgres"
      && session.schema = "pg_catalog"
  | [schema, _] => startsWith schema "pg_" && session.database = "postgres"
  | [_, _, _] => true
  | _ => false

end

/-! ### The oids of the other tables -/

section

variable {state : CatalogState} {session : SessionContext}

theorem classOids_eq : classOids state session = (classNames state session).map nameOid
  := by
  have hrows : ∀ r : CatalogRelation, r.classRows.map (·.oid)
      = (relationKey r.database r.schema r.name
        :: r.indexes.map (fun index => relationKey r.database r.schema index.name)).map nameOid := by
    intro r
    have hindexes : (r.indexes.map r.indexClassRow).map (·.oid)
        = (r.indexes.map (fun index => relationKey r.database r.schema index.name)).map nameOid := by
      rw [List.map_map, List.map_map]
      apply List.map_congr_left
      intro index _
      rw [Function.comp_apply, Function.comp_apply, CatalogRelation.indexClassRow_oid,
        syntheticRelationOid_eq]
    rw [CatalogRelation.classRows, List.map_cons, List.map_cons, hindexes,
      CatalogRelation.classRow_oid, CatalogRelation.oid, syntheticRelationOid_eq]
  rw [classOids, pgClass, classNames, List.map_flatMap, List.map_flatMap]
  exact congrArg (List.flatMap · _) (funext hrows)

/-- Where different names have different oids, the oids are distinct when the names are. -/
theorem classOids_nodup_iff
    (hinj : ∀ a ∈ classNames state session, ∀ b ∈ classNames state session,
      nameOid a = nameOid b → a = b) :
  (classOids state session).Nodup ↔ (classNames state session).Nodup
  := by
  rw [classOids_eq]
  constructor
  · exact List.Nodup.of_map nameOid
  · intro h
    exact (List.nodup_map_iff_inj_on h).mpr hinj

/-- The oid of a relation of the database is in `pg_class`. -/
theorem oid_mem_classOids {r : CatalogRelation} (hr : r ∈ state.relationsIn session.database) :
  r.oid ∈ classOids state session
  := by
  have hrow : r.oid ∈ r.classRows.map (·.oid) := by
    rw [CatalogRelation.classRows, List.map_cons, CatalogRelation.classRow_oid]
    exact List.mem_cons_self
  rw [classOids, pgClass, List.map_flatMap]
  exact List.mem_flatMap.mpr ⟨r, hr, hrow⟩

/-- The oid of an index of a relation of the database is in `pg_class`. -/
theorem indexOid_mem_classOids {r : CatalogRelation} {index : CatalogIndex}
    (hr : r ∈ state.relationsIn session.database) (hindex : index ∈ r.indexes) :
  syntheticRelationOid r.database r.schema index.name ∈ classOids state session
  := by
  have hrow : r.indexClassRow index ∈ r.classRows :=
    List.mem_cons_of_mem _ (List.mem_map_of_mem hindex)
  rw [classOids, pgClass, List.map_flatMap, ← CatalogRelation.indexClassRow_oid r index]
  exact List.mem_flatMap.mpr ⟨r, hr, List.mem_map_of_mem hrow⟩

theorem pgIndex_oids {row : PgIndex} (hrow : row ∈ pgIndex state session) :
  row.indrelid ∈ classOids state session ∧ row.indexrelid ∈ classOids state session
  := by
  obtain ⟨r, hr, hrow⟩ := List.mem_flatMap.mp hrow
  obtain ⟨index, hindex, rfl⟩ := List.mem_map.mp hrow
  dsimp only
  exact ⟨oid_mem_classOids hr, indexOid_mem_classOids hr hindex⟩

theorem pgConstraint_oids {row : PgConstraint} (hrow : row ∈ pgConstraint state session) :
  row.conrelid ∈ classOids state session
  := by
  obtain ⟨r, hr, hrow⟩ := List.mem_flatMap.mp hrow
  obtain ⟨constraint, -, rfl⟩ := List.mem_map.mp hrow
  rw [CatalogRelation.constraintRow_conrelid]
  exact oid_mem_classOids hr

theorem pgAttrdef_oids {row : PgAttrdef} (hrow : row ∈ pgAttrdef state session) :
  row.adrelid ∈ classOids state session
  := by
  obtain ⟨r, hr, hrow⟩ := List.mem_flatMap.mp hrow
  obtain ⟨⟨col, idx⟩, -, hrow⟩ := List.mem_filterMap.mp hrow
  obtain ⟨default, -, rfl⟩ := Option.map_eq_some_iff.mp hrow
  rw [CatalogRelation.attrdefRow_adrelid]
  exact oid_mem_classOids hr

end

/-! ### The numbers of the columns -/

theorem visibleBefore_add_hiddenBefore {columns : List CatalogColumn} {idx : Nat}
    {col : CatalogColumn} (hcol : columns[idx]? = some col) :
  visibleBefore columns idx + hiddenBefore columns idx = idx
  := by
  obtain ⟨hidx, -⟩ := List.getElem?_eq_some_iff.mp hcol
  have hlength : (columns.take idx).length = idx := List.length_take_of_le (Nat.le_of_lt hidx)
  rw [visibleBefore, hiddenBefore, Nat.add_comm]
  conv_rhs => rw [← hlength, List.length_eq_length_filter_add
    (fun c => decide (c.name = "_row_id"))]
  simp

/-- The row of a column has its name, and the number of the visible columns up to it. -/
theorem attributeRowsFrom_get {lower : String → String} {attrelid : UInt32}
    {columns : List CatalogColumn} {idx : Nat} {col : CatalogColumn} (attNum : Nat)
    (hcol : columns[idx]? = some col) (hvisible : col.name ≠ "_row_id") :
  ∃ row, (CatalogRelation.attributeRowsFrom lower attrelid attNum columns)[visibleBefore columns
      idx]? = some row
    ∧ row.attname = col.name ∧ row.attrelid = attrelid
    ∧ row.attnum = Int16.ofNat (attNum + visibleBefore columns idx)
  := by
  induction columns generalizing idx attNum with
  | nil => simp at hcol
  | cons c columns ih =>
      rw [CatalogRelation.attributeRowsFrom]
      cases idx with
      | zero =>
          cases hcol
          rw [if_neg hvisible]
          exact ⟨_, rfl, rfl, rfl, rfl⟩
      | succ idx =>
          rw [List.getElem?_cons_succ] at hcol
          split
          · rename_i hhidden
            have hbefore : visibleBefore (c :: columns) (idx + 1) = visibleBefore columns idx := by
              simp [visibleBefore, hhidden]
            rw [hbefore]
            exact ih attNum hcol
          · rename_i hnumbered
            have hbefore : visibleBefore (c :: columns) (idx + 1)
                = visibleBefore columns idx + 1 := by
              simp [visibleBefore, hnumbered]
            obtain ⟨row, hrow, hname, hrelid, hnum⟩ := ih (attNum + 1) hcol
            rw [Nat.add_right_comm, Nat.add_assoc] at hnum
            rw [hbefore, List.getElem?_cons_succ]
            exact ⟨row, hrow, hname, hrelid, hnum⟩

/-- The hidden column has no row. -/
theorem attname_ne_of_mem_attributeRowsFrom {lower : String → String} {attrelid : UInt32}
    {columns : List CatalogColumn} {attNum : Nat} {row : PgAttribute}
    (hrow : row ∈ CatalogRelation.attributeRowsFrom lower attrelid attNum columns) :
  row.attname ≠ "_row_id"
  := by
  induction columns generalizing attNum with
  | nil => cases hrow
  | cons c columns ih =>
      rw [CatalogRelation.attributeRowsFrom] at hrow
      split at hrow
      · exact ih hrow
      · rename_i hvisible
        rcases List.mem_cons.mp hrow with rfl | hrow
        · exact hvisible
        · exact ih hrow

theorem int16_ofNat_eq_iff {a b : Nat} :
  Int16.ofNat a = Int16.ofNat b ↔ a % 65536 = b % 65536
  := by
  constructor
  · intro h
    have hnat := congrArg (fun n : Int16 => n.toUInt16.toNat) h
    simpa using hnat
  · intro h
    apply Int16.toBitVec.inj
    apply BitVec.eq_of_toNat_eq
    simpa using h

/-- The default of a column refers to the row of the column exactly when the column has a row, and
the columns before it have numbers; up to the width of the numbers. -/
theorem attrdefRow_numbered_iff {lower : String → String} {r : CatalogRelation} {idx : Nat}
    {col : CatalogColumn} {default : String} (hcol : r.columns[idx]? = some col) :
  (∃ row, (r.attributeRows lower)[visibleBefore r.columns idx]? = some row
      ∧ row.attname = col.name ∧ row.attrelid = (r.attrdefRow idx default).adrelid
      ∧ row.attnum = (r.attrdefRow idx default).adnum)
    ↔ col.name ≠ "_row_id" ∧ 65536 ∣ hiddenBefore r.columns idx
  := by
  have hsum := visibleBefore_add_hiddenBefore hcol
  constructor
  · rintro ⟨row, hrow, hname, -, hnum⟩
    have hvisible : col.name ≠ "_row_id" := by
      rw [← hname]
      exact attname_ne_of_mem_attributeRowsFrom (List.mem_of_getElem? hrow)
    refine ⟨hvisible, ?_⟩
    obtain ⟨row', hrow', -, -, hnum'⟩ :=
      @attributeRowsFrom_get lower r.oid r.columns idx col 1 hcol hvisible
    rw [CatalogRelation.attributeRows, hrow'] at hrow
    cases hrow
    rw [hnum', CatalogRelation.attrdefRow, int16_ofNat_eq_iff] at hnum
    omega
  · rintro ⟨hvisible, hhidden⟩
    obtain ⟨row, hrow, hname, hrelid, hnum⟩ :=
      @attributeRowsFrom_get lower r.oid r.columns idx col 1 hcol hvisible
    rw [CatalogRelation.attrdefRow_adrelid]
    refine ⟨row, hrow, hname, hrelid, ?_⟩
    rw [hnum, CatalogRelation.attrdefRow, int16_ofNat_eq_iff]
    omega

/-! ### The oid of a text -/

/-- A name has one part more than dots. -/
theorem length_splitDots (chars : List Char) :
  (splitDots chars).length = chars.count '.' + 1
  := by
  induction chars with
  | nil => rfl
  | cons c rest ih =>
      rw [splitDots]
      split
      · rename_i hdot
        rw [hdot, List.count_cons_self, List.length_cons, ih]
      · rename_i hdot
        rw [List.count_cons_of_ne hdot]
        cases hparts : splitDots rest with
        | nil =>
            rw [hparts] at ih
            cases ih
        | cons part parts =>
            rw [hparts] at ih
            exact ih

/-- The parts of a name, joined by dots, are the name. -/
theorem intercalate_splitDots (chars : List Char) :
  List.intercalate ['.'] (splitDots chars) = chars
  := by
  induction chars with
  | nil => rfl
  | cons c rest ih =>
      rw [splitDots]
      have hlength := length_splitDots rest
      cases hparts : splitDots rest with
      | nil =>
          rw [hparts] at hlength
          cases hlength
      | cons part parts =>
          rw [hparts] at ih
          split
          · rename_i hdot
            rw [hdot, ← ih]
            simp [List.intercalate]
          · rw [← ih]
            cases parts with
            | nil => rfl
            | cons next parts => simp [List.intercalate]

/-- A name is its parts, joined by dots. -/
theorem toList_eq_intercalate (name : String) :
  name.toList = List.intercalate ['.'] ((nameParts name).map String.toList)
  := by
  rw [nameParts, List.map_map]
  have hid : String.toList ∘ String.ofList = id := by
    funext chars
    simp
  rw [hid, List.map_id, intercalate_splitDots]

/-- A name has one part more than dots. -/
theorem length_nameParts (name : String) :
  (nameParts name).length = name.toList.count '.' + 1
  := by
  rw [nameParts, List.length_map, length_splitDots]

/-- A name resolves to a relation of the catalogue. -/
theorem resolveName_found {lower : String → String} {state : CatalogState}
    {session : SessionContext} {name : String} {r : CatalogRelation}
    (h : resolveName lower state session name = some r) :
  ∃ key : String, state.relations[key]? = some r
  := by
  unfold resolveName at h
  split at h
  · cases h
  · exact ⟨_, h⟩
  · exact ⟨_, h⟩
  · exact ⟨_, h⟩
  · exact ⟨_, h⟩

/-- The text of a `regclass` that resolves to a relation is hashed under the name of the relation
exactly when it is qualified, or completed with the database and the schema of the session. -/
theorem regclassName_eq_iff {lower : String → String} {state : CatalogState}
    {session : SessionContext} {name : String} {r : CatalogRelation} (hns : state.Namespaced)
    (hresolves : resolveName lower state session name = some r) :
  regclassName (lower name) = relationKey r.database r.schema r.name
    ↔ regclassQualified lower session name = true
  := by
  obtain ⟨key, hr⟩ := resolveName_found hresolves
  obtain ⟨hplain, hplain', hplain''⟩ := hns.plain_of_relation hr
  unfold resolveName at hresolves
  unfold regclassName regclassQualified
  have hlist := toList_eq_intercalate (lower name)
  have hlength := length_nameParts (lower name)
  have hcount : lower name = relationKey r.database r.schema r.name →
      (lower name).toList.count '.' = 2 := by
    intro heq
    rw [heq, count_relationKey hplain hplain' hplain'']
  -- what a key says of the relation found under it
  have hfound : ∀ {database schema table : String},
      state.relations[relationKey database schema table]? = some r →
      database = r.database ∧ schema = r.schema ∧ table = r.name := by
    intro database schema table hr
    exact relationKey_inj hplain hplain' hplain'' (hns.relations_ok _ r hr).key_eq
  match hparts : nameParts (lower name) with
  | [] =>
      rw [hparts] at hlength
      cases hlength
  | [table] =>
      simp only [hparts, List.reverse_cons, List.reverse_nil, List.nil_append] at hresolves
      obtain ⟨hdatabase, hschema, htable⟩ := hfound hresolves
      simp only [Bool.and_eq_true, decide_eq_true_iff]
      split
      · rename_i hpg
        have hkey : "postgres.pg_catalog." ++ table = relationKey "postgres" "pg_catalog" table :=
          rfl
        rw [hkey, hdatabase, hschema]
        constructor
        · intro heq
          obtain ⟨hpostgres, hcatalog, -⟩ := relationKey_inj hplain hplain' hplain'' heq
          exact ⟨⟨hpg, hpostgres.symm⟩, hcatalog.symm⟩
        · rintro ⟨⟨-, hpostgres⟩, hcatalog⟩
          rw [hpostgres, hcatalog, htable]
      · rename_i hpg
        constructor
        · intro heq
          rw [hparts, hcount heq] at hlength
          cases hlength
        · rintro ⟨⟨hpg', -⟩, -⟩
          exact absurd hpg' hpg
  | [schema, table] =>
      simp only [hparts, List.reverse_cons, List.reverse_nil, List.nil_append,
        List.singleton_append] at hresolves
      obtain ⟨hdatabase, hschema, htable⟩ := hfound hresolves
      simp only [Bool.and_eq_true, decide_eq_true_iff]
      split
      · rename_i hpg
        have hkey : "postgres." ++ lower name = relationKey "postgres" schema table := by
          rw [← String.toList_inj, String.toList_append, hlist, hparts, relationKey_toList]
          simp [List.intercalate]
        rw [hkey, hdatabase]
        constructor
        · intro heq
          exact ⟨hpg, (relationKey_inj hplain hplain' hplain'' heq).1.symm⟩
        · rintro ⟨-, hpostgres⟩
          rw [hpostgres, hschema, htable]
      · rename_i hpg
        constructor
        · intro heq
          rw [hparts, hcount heq] at hlength
          cases hlength
        · rintro ⟨hpg', -⟩
          exact absurd hpg' hpg
  | [database, schema, table] =>
      simp only [hparts, List.reverse_cons, List.reverse_nil, List.nil_append,
        List.cons_append] at hresolves
      obtain ⟨rfl, rfl, rfl⟩ := hfound hresolves
      simp only [iff_true]
      rw [← String.toList_inj, hlist, hparts, relationKey_toList]
      simp [List.intercalate]
  | first :: second :: third :: fourth :: parts =>
      simp only [Bool.false_eq_true, iff_false]
      intro heq
      rw [hparts, hcount heq] at hlength
      simp at hlength

/-! ### Every reachable catalogue -/

/-- Every catalogue reached from that of a new cluster is namespaced. -/
theorem reachable_namespaced (o : Outside) {w : World}
    (h : Run.Reachable Initial (ControlStep o) w) :
  w.catalog.Namespaced
  := by
  refine Run.Reachable.invariant (P := fun w => w.catalog.Namespaced) ?_ ?_ h
  · rintro w ⟨credentials, now, hw | hw⟩
    · rw [hw]
      apply initialState_namespaced
    · rw [hw]
      apply initialState_namespaced
  · rintro w w' hns ⟨⟨session, op⟩, -, rfl⟩
    exact (performOp_leads o session w op).1.namespaced hns

/-- A relation that is found under a key is one of those of its database. -/
theorem mem_relationsIn {state : CatalogState} {key : String} {r : CatalogRelation}
    (hr : state.relations[key]? = some r) :
  r ∈ state.relationsIn r.database
  := by
  rw [CatalogState.relationsIn, List.mem_filter]
  refine ⟨List.mem_map.mpr ⟨(key, r), ?_, rfl⟩, by simp⟩
  exact Std.ExtTreeMap.mem_toList_iff_getElem?_eq_some.mpr hr

/-- Where different names have different oids, the tables of the system catalogue refer to each
other exactly when the relations and indexes of the database have different dotted names, no
default is on or after the hidden column, and the text of the `regclass` is qualified or resolves
to nothing. -/
theorem catalogConsistent_iff (o : Outside) (lower : String → String) {w : World}
    (h : Run.Reachable Initial (ControlStep o) w) (session : SessionContext) (name : String)
    (hinj : OidsApart lower w.catalog session name) :
  CatalogConsistent lower w.catalog session name
    ↔ (classNames w.catalog session).Nodup ∧ DefaultsNumbered w.catalog session
      ∧ ∀ r, resolveName lower w.catalog session name = some r → r.database = session.database →
        regclassQualified lower session name = true
  := by
  have hns := reachable_namespaced o h
  have hnames := @classOids_nodup_iff w.catalog session (fun a ha b hb =>
    hinj a (List.mem_cons_of_mem _ ha) b (List.mem_cons_of_mem _ hb))
  have hregclass : ∀ r, resolveName lower w.catalog session name = some r →
      r.database = session.database →
      (syntheticRelationOidFromName lower name = r.oid
        ↔ regclassQualified lower session name = true) := by
    intro r hresolves hdatabase
    rw [← regclassName_eq_iff hns hresolves, syntheticRelationOidFromName, CatalogRelation.oid,
      syntheticRelationOid_eq]
    constructor
    · apply hinj _ (List.mem_cons_self ..)
      obtain ⟨key, hr⟩ := resolveName_found hresolves
      apply List.mem_cons_of_mem
      refine List.mem_flatMap.mpr ⟨r, ?_, List.mem_cons_self ..⟩
      rw [← hdatabase]
      exact mem_relationsIn hr
    · intro heq
      rw [heq]
  constructor
  · intro hconsistent
    refine ⟨hnames.mp hconsistent.class_oids, ?_, ?_⟩
    · intro r hr idx col hcol hdefault
      obtain ⟨default, hdefault⟩ := Option.isSome_iff_exists.mp hdefault
      exact (attrdefRow_numbered_iff hcol).mp
        (hconsistent.attrdef_columns r hr idx col default hcol hdefault)
    · intro r hresolves hdatabase
      exact (hregclass r hresolves hdatabase).mp (hconsistent.regclass r hresolves hdatabase)
  · rintro ⟨hdistinct, hnumbered, hqualified⟩
    constructor
    · exact hnames.mpr hdistinct
    · intro row hrow
      exact pgIndex_oids hrow
    · intro row hrow
      exact pgConstraint_oids hrow
    · intro row hrow
      exact pgAttrdef_oids hrow
    · intro r hr idx col default hcol hdefault
      refine (attrdefRow_numbered_iff hcol).mpr (hnumbered r hr idx col hcol ?_)
      rw [hdefault]
      rfl
    · intro r hresolves hdatabase
      exact (hregclass r hresolves hdatabase).mpr (hqualified r hresolves hdatabase)

/-! ### A table with a default and an index -/

namespace Installed

/-- The lower case of an ASCII text. -/
def lower (text : String) : String := String.ofList (text.toList.map Char.toLower)

/-- A table one of whose columns has a default, and an index of it. -/
def withDefault : List (SessionContext × ControlOp) :=
  [(session, .registerManagedTable none none "t" "/data/t"
      [⟨"a", "Int32", true, none⟩, ⟨"b", "Int32", true, some "1"⟩] []),
    (session, .createIndex none none "t" "i" ["a"] false)]

/-- A table and an index of it that has its name. -/
def indexNamedLikeTable : List (SessionContext × ControlOp) :=
  [(session, .registerManagedTable none none "t" "/data/t" columns []),
    (session, .createIndex none none "t" "t" ["a"] false)]

/-- A table with a hidden column of its own and a default after it. -/
def defaultAfterHidden : List (SessionContext × ControlOp) :=
  [(session, .registerManagedTable none none "t" "/data/t"
      [⟨"_row_id", "Utf8", true, none⟩, ⟨"b", "Int32", true, some "1"⟩] [])]

theorem after_reachable (calls : List (SessionContext × ControlOp)) :
  Run.Reachable Initial (ControlStep Outside.faultless) (after calls)
  := Run.Reachable.performAll (.start ⟨fun _ => ⟨"", "", ""⟩, fun _ => 0, .inl rfl⟩)
    (Run.allAllowed_true _ _)

end Installed

open Installed in
theorem catalogConsistent_qualified :
  CatalogConsistent lower (after withDefault).catalog session "Postgres.public.T"
  := by
  refine (catalogConsistent_iff Outside.faultless lower (after_reachable withDefault) session
    "Postgres.public.T" (by decide)).mpr ⟨by decide, ?_, ?_⟩
  · intro r hr idx col hcol hdefault
    have hcolumns : ∀ r ∈ (after withDefault).catalog.relationsIn session.database,
        ∀ col ∈ r.columns, col.name ≠ "_row_id" := by
      decide
    refine ⟨hcolumns r hr col (List.mem_of_getElem? hcol), ?_⟩
    have hnone : hiddenBefore r.columns idx = 0 := by
      rw [hiddenBefore, List.length_eq_zero_iff, List.filter_eq_nil_iff]
      intro col hcol
      simpa using hcolumns r hr col (List.mem_of_mem_take hcol)
    rw [hnone]
    exact Nat.dvd_zero _
  · intro _ _ _
    decide

open Installed in
/-- The text of a `regclass` without a database has another oid than the table it resolves to; an
index that has the name of its table has its oid; and a default after a hidden column has the
number of no column. -/
theorem catalogConsistent_fails :
  (OidsApart lower (after withDefault).catalog session "t"
      ∧ ¬ CatalogConsistent lower (after withDefault).catalog session "t")
    ∧ (OidsApart lower (after indexNamedLikeTable).catalog session "postgres.public.t"
      ∧ ¬ CatalogConsistent lower (after indexNamedLikeTable).catalog session "postgres.public.t")
    ∧ OidsApart lower (after defaultAfterHidden).catalog session "postgres.public.t"
      ∧ ¬ CatalogConsistent lower (after defaultAfterHidden).catalog session "postgres.public.t"
  := by
  refine ⟨⟨by decide, ?_⟩, ⟨by decide, ?_⟩, by decide, ?_⟩
  · intro h
    have hfound : ((resolveName lower (after withDefault).catalog session "t").map
        (fun r => (r.database, r.oid == syntheticRelationOidFromName lower "t")))
          = some ("postgres", false) := by
      decide
    obtain ⟨r, hresolves, heq⟩ := Option.map_eq_some_iff.mp hfound
    obtain ⟨hdatabase, hoid⟩ := Prod.mk.inj heq
    rw [h.regclass r hresolves hdatabase] at hoid
    simp at hoid
  · intro h
    have hsame : ¬ (classOids (after indexNamedLikeTable).catalog session).Nodup := by
      decide
    exact hsame h.class_oids
  · intro h
    have hfound : ((after defaultAfterHidden).catalog.relations["postgres.public.t"]?).map
        (fun r => (r.database, r.columns))
          = some ("postgres", [⟨"_row_id", "Utf8", true, none⟩, ⟨"b", "Int32", true, some "1"⟩]) :=
            by
      decide
    obtain ⟨r, hr, heq⟩ := Option.map_eq_some_iff.mp hfound
    obtain ⟨hdatabase, hcolumns⟩ := Prod.mk.inj heq
    have hmem := mem_relationsIn hr
    rw [hdatabase] at hmem
    have hcol : r.columns[1]? = some ⟨"b", "Int32", true, some "1"⟩ := by
      rw [hcolumns]
      rfl
    obtain ⟨-, hhidden⟩ := (attrdefRow_numbered_iff hcol).mp
      (h.attrdef_columns r hmem 1 _ "1" hcol rfl)
    rw [hcolumns] at hhidden
    exact absurd hhidden (by decide)
