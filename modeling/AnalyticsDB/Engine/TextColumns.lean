import AnalyticsDB.Engine.ColumnTypes
import AnalyticsDB.Lib.Text

/-!
# Text columns read from files

A table is read under the types of the catalogue, and where the catalogue says text, under a type
that is guessed: the type the files have, and, where that is text as well, the type as which every
value of a sample can be read.  The workers of a distributed query guess from the files they are
given, and the table provider from all files.  The strings of a text column come back when no
sample decides on another type.
-/

/-- Strings as views into a buffer. -/
abbrev DataType.utf8View : DataType := .other "Utf8View"

/-- Whether values of the type are strings. -/
def DataType.isText (dataType : DataType) : Bool := dataType == .utf8 || dataType == .utf8View

/-- The option of a session that decides as which type strings in files are read. -/
structure SessionConfig where
  schemaForceViewTypes : Bool

/-- The configuration of a session of DataFusion for which nothing is set. -/
def SessionConfig.default : SessionConfig := ⟨true⟩

/-- The configuration of the sessions of the engine. -/
def baseSessionConfig : SessionConfig := ⟨false⟩

/-! ### The schema of files -/

/-- One more field for a schema merged so far: a field of a name it has must have the type. -/
def mergeField (merged : Schema) (field : ArrowField) : Except String Schema :=
  match merged.find? (·.name = field.name) with
  | none => .ok (merged ++ [field])
  | some known =>
    if known.dataType = field.dataType then
      .ok (merged.map (fun other =>
        if other.name = field.name then
          { other with nullable := other.nullable || field.nullable }
        else
          other))
    else
      .error s!"Fail to merge schema field '{field.name}'"

/-- The schema merged so far, with some more fields. -/
def mergeFields (merged : Schema) : List ArrowField → Except String Schema
  | [] => .ok merged
  | field :: fields => do
    let merged ← mergeField merged field
    mergeFields merged fields

/-- The field as which the field of a file is read. -/
def SessionConfig.viewField (config : SessionConfig) (field : ArrowField) : ArrowField :=
  if config.schemaForceViewTypes && field.dataType == .utf8 then
    { field with dataType := .utf8View }
  else
    field

/-- The schema that DataFusion gets from files. -/
def inferSchema (config : SessionConfig) (files : List RecordBatch) : Except String Schema := do
  let merged ← mergeFields [] (files.flatMap (·.schema))
  return merged.map config.viewField

/-! ### Guessing the type of a column -/

/-- Whether a text is a number without a sign and an exponent: digits with at most one point. -/
def isDecimalNumber (text : List Char) : Bool :=
  let whole := text.takeWhile Char.isDigit
  match text.dropWhile Char.isDigit with
  | [] => !whole.isEmpty
  | '.' :: fraction => fraction.all Char.isDigit && !(whole.isEmpty && fraction.isEmpty)
  | _ => false

/-- A text without its sign. -/
def withoutSign : List Char → List Char
  | '+' :: rest => rest
  | '-' :: rest => rest
  | text => text

/-- Whether a text is a number without a sign: one with at most one exponent. -/
def isNumber (text : List Char) : Bool :=
  let mantissa := text.takeWhile (fun c => c != 'e' && c != 'E')
  match text.dropWhile (fun c => c != 'e' && c != 'E') with
  | [] => isDecimalNumber mantissa
  | _ :: exponent =>
    let digits := withoutSign exponent
    isDecimalNumber mantissa && digits.all Char.isDigit && !digits.isEmpty

/-- Whether a text is read as a 64-bit floating-point number. -/
def parsesF64 (text : String) : Bool :=
  let unsigned := withoutSign text.toList
  isNumber unsigned
    || ["inf", "infinity", "nan"].contains (asciiLowercase (String.ofList unsigned))

example : ["007", "1e3", "-.5", "+Infinity"].all parsesF64 = true := by decide

example : ["", ".", "1e", "0x10", "2024-01-05"].any parsesF64 = false := by decide

/-- The readers of dates and times of the package chrono. -/
structure Chrono where
  /-- Whether a text is a date. -/
  naiveDate : String → Bool
  /-- Whether a text is a date and a time, with a blank or a `T` between them. -/
  naiveDateTime : String → Bool

/-- The string in a cell. -/
def Value.string? : Value → Option String
  | .text s => some s
  | _ => none

/-- The strings in a column of a batch. -/
def RecordBatch.strings (batch : RecordBatch) (column : String) : List String :=
  batch.rows.filterMap (fun row => (cellAt batch.schema row column).bind Value.string?)

/-- The strings in a column of batches, if all of them have it with strings that are not views. -/
def sampledStrings (column : String) : List RecordBatch → Option (List String)
  | [] => some []
  | batch :: batches =>
    match batch.schema.find? (·.name = column) with
    | none => none
    | some field =>
      if field.dataType = .utf8 then do
        let rest ← sampledStrings column batches
        return batch.strings column ++ rest
      else
        none

/-- The first type as which every string of a column of a sample can be read, if there is a string
besides blank ones.  Nothing can be read from a blank string. -/
def inferUtf8ColumnType (candidates : List ((String → Bool) × DataType)) (column : String)
    (sample : List RecordBatch) : Option DataType := do
  let values ← sampledStrings column sample
  let values := values.map trimWhiteSpace
  if values.any (fun value => !value.isEmpty) then
    let candidate ← candidates.find? (fun candidate =>
      values.all (fun value => !value.isEmpty && candidate.1 value))
    return candidate.2
  else
    none

section

variable (chrono : Chrono)

/-- The types that a worker tries. -/
def partitionCandidates : List ((String → Bool) × DataType) :=
  [(chrono.naiveDate, .date32), (parsesF64, .float64)]

/-- The types that the table provider tries. -/
def catalogCandidates : List ((String → Bool) × DataType) :=
  [(chrono.naiveDate, .date32), (chrono.naiveDateTime, .timestampNanosecond),
    (parsesF64, .float64)]

def inferUtf8PartitionColumnType : String → List RecordBatch → Option DataType :=
  inferUtf8ColumnType (partitionCandidates chrono)

def inferUtf8CatalogColumnType : String → List RecordBatch → Option DataType :=
  inferUtf8ColumnType (catalogCandidates chrono)

/-! ### The schemas of readers -/

/-- The field as which a worker reads a field of the catalogue. -/
def refineUtf8PartitionField (inferred : Schema) (sample : List RecordBatch)
    (field : ArrowField) : ArrowField :=
  let guessed := match inferUtf8PartitionColumnType chrono field.name sample with
    | some dataType => { field with dataType := dataType }
    | none => field
  if field.dataType ≠ .utf8 ∨ field.name = "_row_id" then
    field
  else
    match inferred.find? (·.name = field.name) with
    | some stored =>
      if stored.dataType ≠ .utf8 then { field with dataType := stored.dataType } else guessed
    | none => guessed

def refineUtf8PartitionSchemaFromSample (schema inferred : Schema) (sample : List RecordBatch) :
    Schema :=
  schema.map (refineUtf8PartitionField chrono inferred sample)

/-- The schema under which a worker reads files, with the sample that the query of the first rows
gives. -/
def buildPartitionReadSchema (files sample : List RecordBatch) (columns : List CatalogColumn) :
    Except String Schema := do
  let schema := buildArrowSchemaFromDefinitions columns
  if schema.any (·.dataType = .utf8) then
    let inferred ← inferSchema baseSessionConfig files
    return refineUtf8PartitionSchemaFromSample chrono schema inferred sample
  else
    return schema

/-- The field of the catalogue with the type the files have. -/
def refineUtf8CatalogFieldWithInferred (inferred : Schema) (field : ArrowField) : ArrowField :=
  if field.dataType ≠ .utf8 ∨ field.name = "_row_id" then
    field
  else
    match inferred.find? (·.name = field.name) with
    | none => field
    | some stored =>
      if stored.dataType = .utf8 then field else { field with dataType := stored.dataType }

/-- The field of the catalogue with the type that the sample has, or decides. -/
def refineUtf8CatalogFieldWithSample (sample : List RecordBatch) (field : ArrowField) :
    ArrowField :=
  let guessed := match inferUtf8CatalogColumnType chrono field.name sample with
    | some dataType => { field with dataType := dataType }
    | none => field
  if field.dataType ≠ .utf8 ∨ field.name = "_row_id" then
    field
  else
    match sample.head?.bind (fun batch => batch.schema.find? (·.name = field.name)) with
    | some sampled =>
      if sampled.dataType.isText then guessed else { field with dataType := sampled.dataType }
    | none => guessed

def refineUtf8CatalogSchemaWithInferred (schema inferred : Schema) : Schema :=
  schema.map (refineUtf8CatalogFieldWithInferred inferred)

def refineUtf8CatalogSchemaWithSample (schema : Schema) (sample : List RecordBatch) : Schema :=
  schema.map (refineUtf8CatalogFieldWithSample chrono sample)

/-- The schema under which the table provider reads a table, with the schema of the files and the
sample, as far as the provider gets them. -/
def tableReadSchema (inferred : Option Schema) (sample : Option (List RecordBatch))
    (columns : List CatalogColumn) : Schema :=
  let schema := catalogRelationToSchema columns
  let schema := match inferred with
    | some inferred => refineUtf8CatalogSchemaWithInferred schema inferred
    | none => schema
  match sample with
  | some sample =>
    if schema.any (·.dataType = .utf8) then
      refineUtf8CatalogSchemaWithSample chrono schema sample
    else
      schema
  | none => schema

end

/-! ### Reading -/

/-- The rows that a query for the first rows of files may give: a batch has the schema that the
session gets from the files, and the rows are rows of the files, as many as there are up to
1024. -/
structure Drawn (config : SessionConfig) (files sample : List RecordBatch) : Prop where
  schema : ∀ batch ∈ sample, inferSchema config files = .ok batch.schema
  rows : ∀ schema, inferSchema config files = .ok schema →
    (sample.flatMap (·.rows)).Subperm (files.flatMap (·.rowsOver (schema.map (·.name))))
  length : (sample.flatMap (·.rows)).length = min 1024 (files.flatMap (·.rows)).length

/-- The files that a worker is given, and the sample it draws from them. -/
structure WorkerSample where
  files : List RecordBatch
  sample : List RecordBatch
  drawn : ∀ schema, inferSchema baseSessionConfig files = .ok schema →
    Drawn baseSessionConfig files sample

/-- What the table provider gets from the files of a table; either query may fail. -/
structure LocalInference (files : List RecordBatch) where
  inferred : Option Schema
  inferred_eq : ∀ schema ∈ inferred, inferSchema .default files = .ok schema
  sample : Option (List RecordBatch)
  drawn : ∀ batches ∈ sample, Drawn .default files batches

section

variable (cast : DataType → DataType → Cell → Except String Cell)

/-- The stored cells of a column in a file. -/
def RecordBatch.cells (file : RecordBatch) (column : String) : List Cell :=
  file.rows.map (fun row => cellAt file.schema row column)

/-- The cells of a file under a field of the schema of a reader: cast where the type of the file
differs, and NULL where the file has no such column. -/
def readCells (field : ArrowField) (file : RecordBatch) : Except String (List Cell) :=
  match file.schema.find? (·.name = field.name) with
  | none => .ok (file.rows.map (fun _ => none))
  | some stored =>
    if stored.dataType = field.dataType || stored.dataType.isText && field.dataType.isText then
      .ok (file.cells field.name)
    else
      (file.cells field.name).mapM (cast stored.dataType field.dataType)

/-- The field of a reader gives text, and the stored cells of every file. -/
structure ReadsStrings (files : List RecordBatch) (field : ArrowField) : Prop where
  isText : field.dataType.isText = true
  cells : ∀ file ∈ files, readCells cast field file = .ok (file.cells field.name)

end

/-! ### Merged schemas -/

/-- The fields of a name have one type. -/
def OneType (fields : List ArrowField) : Prop :=
  ∀ field ∈ fields, ∀ other ∈ fields, field.name = other.name → field.dataType = other.dataType

/-- A field of the name with the type. -/
def HasField (fields : List ArrowField) (name : String) (dataType : DataType) : Prop :=
  ∃ field ∈ fields, field.name = name ∧ field.dataType = dataType

theorem oneType_iff_hasField (fields : List ArrowField) :
  OneType fields
    ↔ ∀ name dataType other, HasField fields name dataType → HasField fields name other →
      dataType = other
  := by
  constructor
  · rintro h name _ _ ⟨field, hfield, hname, rfl⟩ ⟨field', hfield', hname', rfl⟩
    exact h field hfield field' hfield' (hname.trans hname'.symm)
  · intro h field hfield other hother hname
    exact h field.name _ _ ⟨field, hfield, rfl, rfl⟩ ⟨other, hother, hname.symm, rfl⟩

theorem OneType.congr {fields others : List ArrowField}
    (h : ∀ name dataType, HasField fields name dataType ↔ HasField others name dataType) :
  OneType fields ↔ OneType others
  := by
  simp only [oneType_iff_hasField, h]

theorem hasField_append (fields others : List ArrowField) (name : String) (dataType : DataType) :
  HasField (fields ++ others) name dataType
    ↔ HasField fields name dataType ∨ HasField others name dataType
  := by
  simp only [HasField, List.mem_append, or_and_right, exists_or]

/-- The merged schema has the fields it had, and the new one. -/
theorem mergeField_hasField {merged schema : Schema} {field : ArrowField}
    (h : mergeField merged field = .ok schema) (name : String) (dataType : DataType) :
  HasField schema name dataType ↔ HasField (merged ++ [field]) name dataType
  := by
  unfold mergeField at h
  split at h
  · cases h
    exact Iff.rfl
  · rename_i known hknown
    split at h
    · rename_i htype
      cases h
      have hmem := List.mem_of_find?_eq_some hknown
      have hname : known.name = field.name := by
        simpa using List.find?_some hknown
      rw [hasField_append]
      constructor
      · rintro ⟨other, hother, rfl, rfl⟩
        obtain ⟨old, hold, rfl⟩ := List.mem_map.mp hother
        left
        refine ⟨old, hold, ?_⟩
        split <;> simp
      · rintro (⟨old, hold, rfl, rfl⟩ | ⟨old, hold, rfl, rfl⟩)
        · refine ⟨_, List.mem_map_of_mem hold, ?_⟩
          split <;> simp
        · obtain rfl := List.mem_singleton.mp hold
          refine ⟨_, List.mem_map_of_mem hmem, ?_⟩
          rw [if_pos hname]
          exact ⟨hname, htype⟩
    · cases h

/-- A field is merged if and only if its name still has one type. -/
theorem mergeField_ok_iff {merged : Schema} (hmerged : OneType merged) (field : ArrowField) :
  (∃ schema, mergeField merged field = .ok schema) ↔ OneType (merged ++ [field])
  := by
  unfold mergeField
  split
  · rename_i hnone
    simp only [List.find?_eq_none, decide_eq_true_eq] at hnone
    refine ⟨fun _ => ?_, fun _ => ⟨_, rfl⟩⟩
    intro left hleft right hright hname
    rw [List.mem_append, List.mem_singleton] at hleft hright
    rcases hleft with hleft | rfl
    · rcases hright with hright | rfl
      · exact hmerged left hleft right hright hname
      · exact absurd hname (hnone left hleft)
    · rcases hright with hright | rfl
      · exact absurd hname.symm (hnone right hright)
      · rfl
  · rename_i known hknown
    have hmem := List.mem_of_find?_eq_some hknown
    have hname : known.name = field.name := by
      simpa using List.find?_some hknown
    split
    · rename_i htype
      refine ⟨fun _ => ?_, fun _ => ⟨_, rfl⟩⟩
      rw [oneType_iff_hasField] at hmerged ⊢
      have hkeep : ∀ name dataType, HasField (merged ++ [field]) name dataType →
          HasField merged name dataType := by
        intro name dataType hfield
        rcases (hasField_append _ _ _ _).mp hfield with hfield | ⟨other, hother, hother'⟩
        · exact hfield
        · obtain rfl := List.mem_singleton.mp hother
          exact ⟨known, hmem, hname.trans hother'.1, htype.trans hother'.2⟩
      intro name dataType other hfield hfield'
      exact hmerged name dataType other (hkeep _ _ hfield) (hkeep _ _ hfield')
    · rename_i htype
      constructor
      · rintro ⟨schema, h⟩
        cases h
      · intro h
        exact absurd (h known (by simp [hmem]) field (by simp) hname) htype

theorem mergeFields_hasField {merged schema : Schema} {fields : List ArrowField}
    (h : mergeFields merged fields = .ok schema) (name : String) (dataType : DataType) :
  HasField schema name dataType ↔ HasField (merged ++ fields) name dataType
  := by
  induction fields generalizing merged with
  | nil =>
      cases h
      simp
  | cons field fields ih =>
      unfold mergeFields at h
      cases hfield : mergeField merged field with
      | error message =>
          rw [hfield] at h
          cases h
      | ok next =>
          rw [hfield] at h
          rw [ih h, List.append_cons, hasField_append, hasField_append (merged ++ [field]),
            mergeField_hasField hfield]

/-- Fields are merged if and only if every name has one type. -/
theorem mergeFields_ok_iff {merged : Schema} (hmerged : OneType merged)
    (fields : List ArrowField) :
  (∃ schema, mergeFields merged fields = .ok schema) ↔ OneType (merged ++ fields)
  := by
  induction fields generalizing merged with
  | nil => simpa [mergeFields] using hmerged
  | cons field fields ih =>
      unfold mergeFields
      rw [List.append_cons]
      cases hfield : mergeField merged field with
      | error message =>
          have hnot : ¬ OneType (merged ++ [field]) := by
            rw [← mergeField_ok_iff hmerged, hfield]
            rintro ⟨schema, h⟩
            cases h
          constructor
          · rintro ⟨schema, h⟩
            cases h
          · intro h
            refine absurd ?_ hnot
            intro left hleft right hright
            exact h left (List.mem_append_left _ hleft) right (List.mem_append_left _ hright)
      | ok next =>
          have hkept := mergeField_hasField hfield
          have hnext : OneType next := by
            rw [OneType.congr hkept]
            exact (mergeField_ok_iff hmerged field).mp ⟨next, hfield⟩
          have hcongr : OneType (next ++ fields) ↔ OneType (merged ++ [field] ++ fields) := by
            apply OneType.congr
            intro name dataType
            rw [hasField_append, hasField_append (merged ++ [field]), hkept]
          rw [← hcongr]
          exact ih hnext

theorem inferSchema_ok_iff (config : SessionConfig) (files : List RecordBatch) :
  (∃ schema, inferSchema config files = .ok schema) ↔ OneType (files.flatMap (·.schema))
  := by
  have hmerge := @mergeFields_ok_iff [] (fun _ h => by cases h) (files.flatMap (·.schema))
  rw [List.nil_append] at hmerge
  rw [← hmerge]
  unfold inferSchema
  cases mergeFields [] (files.flatMap (·.schema)) with
  | error message =>
      constructor <;>
      · rintro ⟨schema, h⟩
        cases h
  | ok merged => exact ⟨fun _ => ⟨merged, rfl⟩, fun _ => ⟨_, rfl⟩⟩

/-- A field that a session gets from files is a field of a file, as the session reads it. -/
theorem mem_inferSchema {config : SessionConfig} {files : List RecordBatch} {schema : Schema}
    (h : inferSchema config files = .ok schema) {field : ArrowField} (hfield : field ∈ schema) :
  ∃ stored, HasField (files.flatMap (·.schema)) field.name stored
    ∧ field.dataType = if config.schemaForceViewTypes && stored == .utf8 then .utf8View else stored
  := by
  unfold inferSchema at h
  cases hmerged : mergeFields [] (files.flatMap (·.schema)) with
  | error message =>
      rw [hmerged] at h
      cases h
  | ok merged =>
      rw [hmerged] at h
      cases h
      obtain ⟨known, hknown, rfl⟩ := List.mem_map.mp hfield
      refine ⟨known.dataType, ?_, ?_⟩
      · have hnamed : (config.viewField known).name = known.name := by
          unfold SessionConfig.viewField
          split <;> rfl
        have hhas := mergeFields_hasField hmerged known.name known.dataType
        rw [List.nil_append] at hhas
        rw [hnamed]
        exact hhas.mp ⟨known, hknown, rfl, rfl⟩
      · unfold SessionConfig.viewField
        split <;> rfl

/-! ### What a sample decides -/

/-- The strings do not decide on a type other than text: there are none, there is a blank one, or
none of the types can read them all. -/
def Undecided (candidates : List ((String → Bool) × DataType)) (values : List String) : Prop :=
  values = [] ∨ (∃ value ∈ values, trimWhiteSpace value = "")
    ∨ ∀ candidate ∈ candidates, ∃ value ∈ values, candidate.1 (trimWhiteSpace value) = false

/-- The strings of a sample whose batches have one schema, in which the column is text. -/
theorem sampledStrings_eq {column : String} {schema : Schema} {sample : List RecordBatch}
    (hsample : ∀ batch ∈ sample, batch.schema = schema) {field : ArrowField}
    (hfield : schema.find? (·.name = column) = some field) (htext : field.dataType = .utf8) :
  sampledStrings column sample = some (sample.flatMap (·.strings column))
  := by
  induction sample with
  | nil => rfl
  | cons batch batches ih =>
      have hschema := hsample batch List.mem_cons_self
      unfold sampledStrings
      rw [hschema, hfield, ih (fun other hother => hsample other (List.mem_cons_of_mem _ hother))]
      simp only [htext, if_true]
      rfl

/-- A batch without a column has no strings in it. -/
theorem strings_eq_nil {batch : RecordBatch} {column : String}
    (h : batch.schema.find? (·.name = column) = none) :
  batch.strings column = []
  := by
  unfold RecordBatch.strings cellAt
  rw [List.find?_eq_none] at h
  rw [List.findIdx?_eq_none_iff.mpr fun field hfield => by simpa using h field hfield]
  simp

/-- Where a column of a sample is text, no type is guessed if and only if the strings do not decide
on one. -/
theorem inferUtf8ColumnType_eq_none_iff (candidates : List ((String → Bool) × DataType))
    {column : String} {schema : Schema} {sample : List RecordBatch}
    (hsample : ∀ batch ∈ sample, batch.schema = schema)
    (htext : ∀ field ∈ schema, field.name = column → field.dataType = .utf8) :
  inferUtf8ColumnType candidates column sample = none
    ↔ Undecided candidates (sample.flatMap (·.strings column))
  := by
  cases hfield : schema.find? (·.name = column) with
  | none =>
      have hstrings : sample.flatMap (·.strings column) = [] := by
        rw [List.flatMap_eq_nil_iff]
        intro batch hbatch
        apply strings_eq_nil
        rw [hsample batch hbatch, hfield]
      rw [hstrings]
      refine ⟨fun _ => .inl rfl, fun _ => ?_⟩
      cases sample with
      | nil => rfl
      | cons batch batches =>
          unfold inferUtf8ColumnType sampledStrings
          rw [hsample batch List.mem_cons_self, hfield]
          rfl
  | some field =>
      have hname : field.name = column := by
        simpa using List.find?_some hfield
      have htype := htext field (List.mem_of_find?_eq_some hfield) hname
      unfold inferUtf8ColumnType
      rw [sampledStrings_eq hsample hfield htype]
      generalize sample.flatMap (·.strings column) = values
      simp only [Option.bind_eq_bind, Option.bind_some]
      unfold Undecided
      split
      · rename_i hany
        have hne : values ≠ [] := by
          rintro rfl
          simp at hany
        simp only [Option.bind_eq_none_iff, Option.pure_def, reduceCtorEq, imp_false]
        rw [← Option.eq_none_iff_forall_ne_some, List.find?_eq_none]
        simp only [hne, false_or, List.all_eq_true, List.mem_map, forall_exists_index, and_imp,
          forall_apply_eq_imp_iff₂, Bool.and_eq_true, Bool.not_eq_true',
          not_forall, not_and, Bool.not_eq_true, exists_prop]
        constructor
        · intro h
          by_cases hblank : ∃ value ∈ values, trimWhiteSpace value = ""
          · exact .inl hblank
          · right
            intro candidate hcandidate
            obtain ⟨value, hvalue, hnot⟩ := h candidate hcandidate
            refine ⟨value, hvalue, hnot ?_⟩
            rw [Bool.eq_false_iff]
            intro hempty
            exact hblank ⟨value, hvalue, by simpa using hempty⟩
        · rintro (⟨value, hvalue, hblank⟩ | h) candidate hcandidate
          · refine ⟨value, hvalue, ?_⟩
            rw [hblank]
            intro hempty
            exact absurd hempty (by decide)
          · obtain ⟨value, hvalue, hnot⟩ := h candidate hcandidate
            exact ⟨value, hvalue, fun _ => hnot⟩
      · rename_i hany
        simp only [true_iff]
        simp only [List.any_eq_true, List.mem_map, Bool.not_eq_true', not_exists, not_and] at hany
        cases values with
        | nil => exact .inl rfl
        | cons value rest =>
            right
            left
            refine ⟨value, List.mem_cons_self, ?_⟩
            have hempty := hany _ ⟨value, List.mem_cons_self, rfl⟩
            simpa using hempty

/-- No type that is guessed is text. -/
theorem inferUtf8ColumnType_mem {candidates : List ((String → Bool) × DataType)} {column : String}
    {sample : List RecordBatch} {dataType : DataType}
    (h : inferUtf8ColumnType candidates column sample = some dataType) :
  dataType ∈ candidates.map (·.2)
  := by
  unfold inferUtf8ColumnType at h
  simp only [Option.bind_eq_bind, Option.bind_eq_some_iff] at h
  obtain ⟨values, -, h⟩ := h
  split at h
  · simp only [Option.bind_eq_some_iff] at h
    obtain ⟨candidate, hcandidate, h⟩ := h
    cases h
    exact List.mem_map_of_mem (List.mem_of_find?_eq_some hcandidate)
  · cases h

/-! ### Text columns -/

/-- A column that the writers and the readers know as text, and not the row id. -/
structure TextColumn (column : CatalogColumn) : Prop where
  written : catalogDataType column.dataType = .utf8
  read : readDataType column.dataType = .utf8
  user : column.name ≠ "_row_id"

/-- A table whose files have strings in the text columns. -/
structure StringTable where
  columns : List CatalogColumn
  files : List RecordBatch
  strings : ∀ column ∈ columns, TextColumn column → ∀ file ∈ files, ∀ field ∈ file.schema,
    field.name = column.name → field.dataType = .utf8

/-- A split of the files of a table among workers. -/
structure Split (table : StringTable) where
  partitions : List WorkerSample
  perm : (partitions.flatMap (·.files)).Perm table.files

/-- The workers and the table provider read the text columns as text, with the stored strings. -/
structure StringsReadBack (chrono : Chrono)
    (cast : DataType → DataType → Cell → Except String Cell) (table : StringTable)
    (split : Split table) (provider : LocalInference table.files) : Prop where
  worker : ∀ part ∈ split.partitions, ∀ (i : Nat) column, table.columns[i]? = some column →
    TextColumn column → ∃ schema field,
      buildPartitionReadSchema chrono part.files part.sample table.columns = .ok schema
        ∧ schema[i]? = some field ∧ field.name = column.name ∧ ReadsStrings cast part.files field
  provider : ∀ (i : Nat) column, table.columns[i]? = some column → TextColumn column → ∃ field,
    (tableReadSchema chrono provider.inferred provider.sample table.columns)[i]? = some field
      ∧ field.name = column.name ∧ ReadsStrings cast table.files field

/-- Text is read from files with strings as it is stored. -/
theorem readsStrings_of_isText (cast : DataType → DataType → Cell → Except String Cell)
    {files : List RecordBatch} {field : ArrowField} (htext : field.dataType.isText = true)
    (hfiles : ∀ file ∈ files, ∀ stored ∈ file.schema, stored.name = field.name →
      stored.dataType = .utf8) :
  ReadsStrings cast files field
  := by
  refine ⟨htext, ?_⟩
  intro file hfile
  unfold readCells
  split
  · rename_i hnone
    unfold RecordBatch.cells cellAt
    rw [List.find?_eq_none] at hnone
    rw [List.findIdx?_eq_none_iff.mpr fun stored hstored => by simpa using hnone stored hstored]
  · rename_i stored hstored
    have hname : stored.name = field.name := by
      simpa using List.find?_some hstored
    have htype := hfiles file hfile stored (List.mem_of_find?_eq_some hstored) hname
    rw [htype, htext]
    simp [DataType.isText]

section

variable (chrono : Chrono) {column : CatalogColumn} {files sample : List RecordBatch}

/-- What a session gets from files for a column in which they have strings. -/
theorem inferSchema_column {config : SessionConfig} {schema : Schema}
    (hstrings : ∀ file ∈ files, ∀ field ∈ file.schema, field.name = column.name →
      field.dataType = .utf8)
    (hschema : inferSchema config files = .ok schema) :
  ∀ field ∈ schema, field.name = column.name →
    field.dataType = if config.schemaForceViewTypes then .utf8View else .utf8
  := by
  intro field hfield hname
  obtain ⟨stored, ⟨known, hknown, hknownName, rfl⟩, htype⟩ := mem_inferSchema hschema hfield
  obtain ⟨file, hfile, hmem⟩ := List.mem_flatMap.mp hknown
  have hutf8 := hstrings file hfile known hmem (hknownName.trans hname)
  rw [htype, hutf8]
  simp

theorem refineUtf8PartitionField_name (schema : Schema) (sample : List RecordBatch)
    (field : ArrowField) :
  (refineUtf8PartitionField chrono schema sample field).name = field.name
  := by
  unfold refineUtf8PartitionField
  cases inferUtf8PartitionColumnType chrono field.name sample <;>
  · dsimp only
    split
    · rfl
    · split
      · split <;> rfl
      · rfl

/-- A worker reads a text column as text if and only if its sample does not decide otherwise. -/
theorem refineUtf8PartitionField_isText_iff (hcolumn : TextColumn column) {schema : Schema}
    (hstrings : ∀ file ∈ files, ∀ field ∈ file.schema, field.name = column.name →
      field.dataType = .utf8)
    (hschema : inferSchema baseSessionConfig files = .ok schema)
    (hsample : ∀ batch ∈ sample, batch.schema = schema) :
  (refineUtf8PartitionField chrono schema sample (definitionField column)).dataType.isText = true
    ↔ Undecided (partitionCandidates chrono) (sample.flatMap (·.strings column.name))
  := by
  have hinferred := inferSchema_column hstrings hschema
  have htype : (definitionField column).dataType = .utf8 := hcolumn.written
  have hname : (definitionField column).name = column.name := rfl
  have hguess := inferUtf8ColumnType_eq_none_iff (partitionCandidates chrono) hsample hinferred
  have hstored : ∀ stored, schema.find? (·.name = column.name) = some stored →
      stored.dataType = .utf8 := by
    intro stored hfound
    exact hinferred stored (List.mem_of_find?_eq_some hfound)
      (by simpa using List.find?_some hfound)
  rw [← hguess]
  have hrefined : refineUtf8PartitionField chrono schema sample (definitionField column)
      = match inferUtf8PartitionColumnType chrono column.name sample with
        | some dataType => { definitionField column with dataType := dataType }
        | none => definitionField column := by
    unfold refineUtf8PartitionField
    rw [if_neg (by simp [htype, hname, hcolumn.user]), hname]
    cases hfound : schema.find? (·.name = column.name) with
    | none => rfl
    | some stored =>
        simp only [hstored stored hfound, ne_eq, not_true_eq_false, if_false]
        rfl
  rw [hrefined]
  unfold inferUtf8PartitionColumnType
  cases hcase : inferUtf8ColumnType (partitionCandidates chrono) column.name sample with
  | none => simp [htype, DataType.isText]
  | some dataType =>
      have hmem := inferUtf8ColumnType_mem hcase
      simp only [partitionCandidates, List.map_cons, List.map_nil, List.mem_cons,
        List.not_mem_nil, or_false] at hmem
      obtain rfl | rfl := hmem <;> simp [DataType.isText]

/-- Nothing is guessed from a sample in which the column is not text, or text as views. -/
theorem inferUtf8ColumnType_eq_none_of_ne (candidates : List ((String → Bool) × DataType))
    {name : String} (h : ∀ batch ∈ sample, ∀ field ∈ batch.schema, field.name = name →
      field.dataType ≠ .utf8) :
  inferUtf8ColumnType candidates name sample = none
  := by
  cases sample with
  | nil => rfl
  | cons batch batches =>
      unfold inferUtf8ColumnType sampledStrings
      cases hfield : batch.schema.find? (·.name = name) with
      | none => rfl
      | some field =>
          have hname : field.name = name := by
            simpa using List.find?_some hfield
          have hne := h batch List.mem_cons_self field (List.mem_of_find?_eq_some hfield) hname
          simp only [hne, if_false]
          rfl

/-- With the types of the files, a text column is text. -/
theorem refineUtf8CatalogFieldWithInferred_isText {schema : Schema}
    (hstrings : ∀ file ∈ files, ∀ field ∈ file.schema, field.name = column.name →
      field.dataType = .utf8)
    (hschema : inferSchema .default files = .ok schema) {field : ArrowField}
    (hname : field.name = column.name) (htype : field.dataType.isText = true) :
  (refineUtf8CatalogFieldWithInferred schema field).name = column.name
    ∧ (refineUtf8CatalogFieldWithInferred schema field).dataType.isText = true
  := by
  unfold refineUtf8CatalogFieldWithInferred
  split
  · exact ⟨hname, htype⟩
  · split
    · exact ⟨hname, htype⟩
    · rename_i stored hfound
      have hstored : stored.name = column.name := by
        rw [← hname]
        simpa using List.find?_some hfound
      have hview := inferSchema_column hstrings hschema stored
        (List.mem_of_find?_eq_some hfound) hstored
      split
      · exact ⟨hname, htype⟩
      · refine ⟨hname, ?_⟩
        simp [hview, SessionConfig.default, DataType.isText]

/-- With a sample, a text column is text: the strings of the sample are views, from which nothing
is guessed. -/
theorem refineUtf8CatalogFieldWithSample_isText
    (hstrings : ∀ file ∈ files, ∀ field ∈ file.schema, field.name = column.name →
      field.dataType = .utf8)
    (hdrawn : Drawn .default files sample) {field : ArrowField}
    (hname : field.name = column.name) (htype : field.dataType.isText = true) :
  (refineUtf8CatalogFieldWithSample chrono sample field).name = column.name
    ∧ (refineUtf8CatalogFieldWithSample chrono sample field).dataType.isText = true
  := by
  have hview : ∀ batch ∈ sample, ∀ stored ∈ batch.schema, stored.name = field.name →
      stored.dataType = .utf8View := by
    intro batch hbatch stored hstored hstoredName
    have htyped := inferSchema_column hstrings (hdrawn.schema batch hbatch) stored hstored
      (hstoredName.trans hname)
    simpa [SessionConfig.default] using htyped
  have hguess : inferUtf8CatalogColumnType chrono field.name sample = none := by
    apply inferUtf8ColumnType_eq_none_of_ne
    intro batch hbatch stored hstored hstoredName
    rw [hview batch hbatch stored hstored hstoredName]
    decide
  unfold refineUtf8CatalogFieldWithSample
  rw [hguess]
  dsimp only
  split
  · exact ⟨hname, htype⟩
  · split
    · rename_i sampled hsampled
      obtain ⟨batch, hbatch, hfound⟩ := Option.bind_eq_some_iff.mp hsampled
      have htyped := hview batch (List.mem_of_head? hbatch) sampled
        (List.mem_of_find?_eq_some hfound) (by simpa using List.find?_some hfound)
      rw [htyped]
      exact ⟨hname, htype⟩
    · exact ⟨hname, htype⟩

/-- The field of a column in the schema of the catalogue. -/
theorem catalogRelationToSchema_getElem? {columns : List CatalogColumn} {i : Nat}
    (h : columns[i]? = some column) :
  (catalogRelationToSchema columns)[i]?
    = some ⟨column.name, readDataType column.dataType, column.nullable⟩
  := by
  have hfield := congrArg (Option.map (fun column : CatalogColumn =>
    (⟨column.name, readDataType column.dataType, column.nullable⟩ : ArrowField))) h
  rw [← List.getElem?_map] at hfield
  unfold catalogRelationToSchema
  dsimp only
  split
  · exact hfield
  · rw [List.getElem?_append_left (List.getElem?_eq_some_iff.mp hfield).1]
    exact hfield

theorem buildArrowSchemaFromDefinitions_getElem? {columns : List CatalogColumn} {i : Nat}
    (h : columns[i]? = some column) :
  (buildArrowSchemaFromDefinitions columns)[i]? = some (definitionField column)
  := by
  have hfield := congrArg (Option.map definitionField) h
  rw [← List.getElem?_map] at hfield
  unfold buildArrowSchemaFromDefinitions
  dsimp only
  split
  · exact hfield
  · rw [List.getElem?_append_left]
    · exact hfield
    · exact (List.getElem?_eq_some_iff.mp hfield).1

/-- The table provider reads a text column as text. -/
theorem tableReadSchema_isText {columns : List CatalogColumn} {i : Nat}
    (hcolumn : TextColumn column) (hi : columns[i]? = some column)
    (hstrings : ∀ file ∈ files, ∀ field ∈ file.schema, field.name = column.name →
      field.dataType = .utf8)
    (provider : LocalInference files) :
  ∃ field, (tableReadSchema chrono provider.inferred provider.sample columns)[i]? = some field
    ∧ field.name = column.name ∧ field.dataType.isText = true
  := by
  obtain ⟨inferred, hinferred, sample, hdrawn⟩ := provider
  have hstart := catalogRelationToSchema_getElem? hi
  obtain ⟨start, hstart, hstartName, hread⟩ : ∃ field,
      (catalogRelationToSchema columns)[i]? = some field ∧ field.name = column.name
        ∧ field.dataType.isText = true := by
    refine ⟨_, hstart, rfl, ?_⟩
    dsimp only
    rw [hcolumn.read]
    rfl
  unfold tableReadSchema
  dsimp only
  -- after the types of the files
  obtain ⟨field, hfield, hname, htype⟩ : ∃ field,
      (match inferred with
        | some inferred =>
          refineUtf8CatalogSchemaWithInferred (catalogRelationToSchema columns) inferred
        | none => catalogRelationToSchema columns)[i]? = some field
      ∧ field.name = column.name ∧ field.dataType.isText = true := by
    cases inferred with
    | none => exact ⟨start, hstart, hstartName, hread⟩
    | some schema =>
        obtain ⟨hname, htype⟩ := refineUtf8CatalogFieldWithInferred_isText hstrings
          (hinferred schema rfl) hstartName hread
        refine ⟨_, ?_, hname, htype⟩
        unfold refineUtf8CatalogSchemaWithInferred
        rw [List.getElem?_map, hstart]
        rfl
  revert hfield
  generalize (match inferred with
    | some inferred => refineUtf8CatalogSchemaWithInferred (catalogRelationToSchema columns)
      inferred
    | none => catalogRelationToSchema columns) = schema
  intro hfield
  cases sample with
  | none => exact ⟨field, hfield, hname, htype⟩
  | some batches =>
      dsimp only
      split
      · obtain ⟨hname, htype⟩ := refineUtf8CatalogFieldWithSample_isText chrono hstrings
          (hdrawn batches rfl) hname htype
        refine ⟨_, ?_, hname, htype⟩
        rw [refineUtf8CatalogSchemaWithSample, List.getElem?_map, hfield]
        rfl
      · exact ⟨field, hfield, hname, htype⟩

/-- A worker reads the strings of a text column if and only if its files can be read together and
its sample does not decide on a type for the column. -/
theorem WorkerSample.readsStrings_iff (part : WorkerSample)
    (cast : DataType → DataType → Cell → Except String Cell) {columns : List CatalogColumn}
    {i : Nat} (hcolumn : TextColumn column) (hi : columns[i]? = some column)
    (hstrings : ∀ file ∈ part.files, ∀ field ∈ file.schema, field.name = column.name →
      field.dataType = .utf8) :
  (∃ schema field, buildPartitionReadSchema chrono part.files part.sample columns = .ok schema
      ∧ schema[i]? = some field ∧ field.name = column.name ∧ ReadsStrings cast part.files field)
    ↔ OneType (part.files.flatMap (·.schema))
      ∧ Undecided (partitionCandidates chrono) (part.sample.flatMap (·.strings column.name))
  := by
  have hfield := buildArrowSchemaFromDefinitions_getElem? hi
  have hany : (buildArrowSchemaFromDefinitions columns).any (·.dataType = .utf8) = true := by
    rw [List.any_eq_true]
    refine ⟨definitionField column, List.mem_of_getElem? hfield, ?_⟩
    exact decide_eq_true hcolumn.written
  rw [← inferSchema_ok_iff baseSessionConfig]
  unfold buildPartitionReadSchema
  dsimp only
  rw [if_pos hany]
  cases hinferred : inferSchema baseSessionConfig part.files with
  | error message =>
      constructor
      · rintro ⟨schema, field, h, -⟩
        cases h
      · rintro ⟨⟨schema, h⟩, -⟩
        cases h
  | ok schema =>
      have hsample : ∀ batch ∈ part.sample, batch.schema = schema := by
        intro batch hbatch
        have h := (part.drawn schema hinferred).schema batch hbatch
        rw [hinferred] at h
        cases h
        rfl
      have hrefined : (refineUtf8PartitionSchemaFromSample chrono
          (buildArrowSchemaFromDefinitions columns) schema part.sample)[i]?
          = some (refineUtf8PartitionField chrono schema part.sample
            (definitionField column)) := by
        unfold refineUtf8PartitionSchemaFromSample
        rw [List.getElem?_map, hfield]
        rfl
      have hname := refineUtf8PartitionField_name chrono schema part.sample (definitionField column)
      have htext := refineUtf8PartitionField_isText_iff chrono hcolumn hstrings hinferred hsample
      constructor
      · rintro ⟨_, field, ⟨⟩, hmem, -, hreads⟩
        rw [hrefined] at hmem
        cases hmem
        exact ⟨⟨schema, rfl⟩, htext.mp hreads.isText⟩
      · rintro ⟨-, hundecided⟩
        refine ⟨_, _, rfl, hrefined, hname, ?_⟩
        apply readsStrings_of_isText cast (htext.mpr hundecided)
        rw [hname]
        exact hstrings

end

/-- A table with the text column `code` and one row. -/
def codeFile (code : String) : RecordBatch :=
  { schema := [⟨"code", .utf8, true⟩, ⟨"_row_id", .utf8, true⟩]
    rows := [[some (.text code), some (.text "r1")]] }

/-- The table with the row, read by one worker. -/
def codeTable (code : String) : StringTable :=
  { columns := [⟨"code", "TEXT", true, none⟩]
    files := [codeFile code]
    strings := by
      intro column hcolumn _ file hfile field hfield hname
      obtain rfl := List.mem_singleton.mp hfile
      simp only [codeFile, List.mem_cons, List.not_mem_nil, or_false] at hfield
      obtain rfl | rfl := hfield <;> rfl }

theorem codeFile_inferSchema (config : SessionConfig) (code : String) :
  inferSchema config [codeFile code] = .ok ((codeFile code).schema.map config.viewField)
  := rfl

/-- The sample of the row, as a session reads it. -/
def codeSample (config : SessionConfig) (code : String) : List RecordBatch :=
  [⟨(codeFile code).schema.map config.viewField, (codeFile code).rows⟩]

theorem codeSample_drawn (config : SessionConfig) (code : String) :
  Drawn config [codeFile code] (codeSample config code)
  := by
  constructor
  · intro batch hbatch
    obtain rfl := List.mem_singleton.mp hbatch
    exact codeFile_inferSchema config code
  · intro schema hschema
    rw [codeFile_inferSchema] at hschema
    cases hschema
    have hnames : ((codeFile code).schema.map config.viewField).map (·.name)
        = ["code", "_row_id"] := by
      cases config with
      | mk viewTypes => cases viewTypes <;> rfl
    rw [hnames]
    exact ⟨_, List.Perm.refl _, List.Sublist.refl _⟩
  · rfl

def codeSplit (code : String) : Split (codeTable code) :=
  { partitions :=
      [{ files := [codeFile code]
         sample := codeSample baseSessionConfig code
         drawn := fun _ _ => codeSample_drawn baseSessionConfig code }]
    perm := List.Perm.refl _ }

def codeProvider (code : String) : LocalInference [codeFile code] :=
  { inferred := some ((codeFile code).schema.map SessionConfig.default.viewField)
    inferred_eq := by
      rintro _ ⟨⟩
      exact codeFile_inferSchema .default code
    sample := some (codeSample .default code)
    drawn := by
      rintro _ ⟨⟩
      exact codeSample_drawn .default code }
