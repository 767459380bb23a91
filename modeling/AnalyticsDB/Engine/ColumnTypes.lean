import AnalyticsDB.Engine.Create

/-!
# The types of columns as texts

The catalogue keeps the type of a column as a text: the spelling of a statement, or what Arrow
prints for a type.  Three tables map the text back: one of the writers of a table, one of its
readers, and one of the Flight SQL metadata.  A text has one meaning when the three agree with
what was declared, or with what the query produced.
-/

/-- Nanoseconds without a time zone. -/
abbrev DataType.timestampNanosecond : DataType := .other "Timestamp(Nanosecond, None)"

/-- What Arrow prints for a type. -/
def DataType.debugText : DataType → String
  | .boolean => "Boolean"
  | .int16 => "Int16"
  | .int32 => "Int32"
  | .int64 => "Int64"
  | .float32 => "Float32"
  | .float64 => "Float64"
  | .decimal128 precision scale => s!"Decimal128({precision}, {scale})"
  | .utf8 => "Utf8"
  | .date32 => "Date32"
  | .timestampMicrosecond none => "Timestamp(Microsecond, None)"
  | .timestampMicrosecond (some zone) => s!"Timestamp(Microsecond, Some(\"{zone}\"))"
  | .other name => name

/-- The type as which a column is read.  No character outside ASCII has a letter of these names as
its lower case. -/
def readDataType (dataType : String) : DataType :=
  let lower := asciiLowercase dataType
  if startsWith lower "numeric" || startsWith lower "decimal" then
    .decimal128 38 10
  else
    match lower with
    | "bool" | "boolean" => .boolean
    | "int2" | "smallint" => .int16
    | "int4" | "integer" | "int" | "int32" => .int32
    | "int8" | "bigint" | "int64" => .int64
    | "float4" | "real" | "float32" => .float32
    | "float8" | "double precision" | "double" | "float64" => .float64
    | "text" | "varchar" | "char" | "utf8" => .utf8
    | "date" => .date32
    | _ => if startsWith lower "timestamp" then .timestampNanosecond else .utf8

/-- The schema as which a table is read: its columns and the row id. -/
def catalogRelationToSchema (columns : List CatalogColumn) : Schema :=
  let fields := columns.map (fun column =>
    { name := column.name
      dataType := readDataType column.dataType
      nullable := column.nullable : ArrowField })
  if fields.any (·.name = "_row_id") then fields else fields ++ [rowIdField]

/-- The type that the Flight SQL metadata give a column. -/
def catalogTypeToArrowDataType (dataType : String) : DataType :=
  if startsWith dataType "Timestamp" then
    if contains dataType "Some" || contains dataType "UTC" then
      .timestampMicrosecond (some "UTC")
    else
      .timestampMicrosecond none
  else
    match dataType with
    | "Boolean" => .boolean
    | "Float32" => .float32
    | "Float64" => .float64
    | "Int32" => .int32
    | "Int64" => .int64
    | "UInt32" => .other "UInt32"
    | "UInt64" => .other "UInt64"
    | "Date32" | "Date" => .date32
    | _ => .utf8

/-! ### Where a column comes from -/

/-- The statement that gave a column its type. -/
inductive ColumnOrigin where
  | createTable (column : CatalogColumn)
  | createTableAs (field : ArrowField)
  | addColumn (column : CatalogColumn)
  | alterColumnType (dataType : String) (column : CatalogColumn)

/-- The column of the catalogue for a field of a schema. -/
def catalogColumnFromField (field : ArrowField) : CatalogColumn :=
  { name := field.name
    dataType := field.dataType.debugText
    nullable := field.nullable
    defaultValue := none }

/-- The field of a file for a column of a definition. -/
def definitionField (column : CatalogColumn) : ArrowField :=
  { name := column.name
    dataType := catalogDataType column.dataType
    nullable := column.nullable }

/-- The column that the catalogue has after the statement. -/
def ColumnOrigin.stored : ColumnOrigin → CatalogColumn
  | .createTable column => catalogColumnFromField (definitionField column)
  | .createTableAs field => catalogColumnFromField field
  | .addColumn column => column
  | .alterColumnType dataType column => (AlterColumnOperation.setDataType dataType).apply column

/-- The default that the statement declares, or leaves. -/
def ColumnOrigin.declaredDefault : ColumnOrigin → Option String
  | .createTable column => column.defaultValue
  | .createTableAs _ => none
  | .addColumn column => column.defaultValue
  | .alterColumnType _ column => column.defaultValue

/-- The type that the statement declares, or that its query produces.  `meaning` is what the
spellings of types mean. -/
def ColumnOrigin.declared (meaning : String → DataType) : ColumnOrigin → DataType
  | .createTable column => meaning column.dataType
  | .createTableAs field => field.dataType
  | .addColumn column => meaning column.dataType
  | .alterColumnType dataType _ => meaning dataType

/-- The column of the catalogue is written, read and shown as the declared type, and has the
declared default. -/
structure OneMeaning (column : CatalogColumn) (declared : DataType) (default : Option String) :
    Prop where
  written : catalogDataType column.dataType = declared
  read : readDataType column.dataType = declared
  shown : catalogTypeToArrowDataType column.dataType = declared
  default : column.defaultValue = default

/-- The types for which all three tables know what Arrow prints. -/
def printedTypes : List DataType := [.boolean, .int32, .int64, .float32, .float64, .utf8]

/-- The spellings for which all three tables know a type other than text. -/
def knownSpellings : List (String × DataType) :=
  [("Boolean", .boolean), ("Int32", .int32), ("Int64", .int64), ("Float32", .float32),
    ("Float64", .float64), ("Date", .date32)]

/-- The names of types other than text that the writers know. -/
def writtenNames : List String :=
  ["INT", "INTEGER", "INT4", "INT32", "BIGINT", "INT8", "INT64", "BOOLEAN", "BOOL", "FLOAT4",
    "REAL", "FLOAT32", "FLOAT8", "DOUBLE PRECISION", "FLOAT64", "DATE", "DATE32"]

/-- The names of types other than text that the readers know. -/
def readNames : List String :=
  ["bool", "boolean", "int2", "smallint", "int4", "integer", "int", "int32", "int8", "bigint",
    "int64", "float4", "real", "float32", "float8", "double precision", "double", "float64",
    "date"]

/-- A spelling that is the name of no type other than text. -/
structure PlainText (dataType : String) : Prop where
  decimal : startsWith (asciiUppercase dataType) "NUMERIC" = false
    ∧ startsWith (asciiUppercase dataType) "DECIMAL" = false
  timestamp : startsWith (asciiUppercase dataType) "TIMESTAMP" = false
  written : asciiUppercase dataType ∉ writtenNames
  decimalRead : startsWith (asciiLowercase dataType) "numeric" = false
    ∧ startsWith (asciiLowercase dataType) "decimal" = false
  timestampRead : startsWith (asciiLowercase dataType) "timestamp" = false
  read : asciiLowercase dataType ∉ readNames
  shown : startsWith dataType "Timestamp" = false ∧ dataType ≠ "UInt32" ∧ dataType ≠ "UInt64"

/-- A spelling with one meaning. -/
def SpelledAlike (dataType : String) (declared : DataType) : Prop :=
  (dataType, declared) ∈ knownSpellings ∨ declared = .utf8 ∧ PlainText dataType

/-- The condition under which a column has one meaning. -/
def ColumnOrigin.MeansOne (meaning : String → DataType) : ColumnOrigin → Prop
  | .createTable column =>
    catalogDataType column.dataType = meaning column.dataType
      ∧ meaning column.dataType ∈ printedTypes ∧ column.defaultValue = none
  | .createTableAs field => field.dataType ∈ printedTypes
  | .addColumn column => SpelledAlike column.dataType (meaning column.dataType)
  | .alterColumnType dataType _ => SpelledAlike dataType (meaning dataType)

/-! ### The three tables -/

/-- The types that the writers give. -/
theorem catalogDataType_mem (dataType : String) :
  catalogDataType dataType ∈ [.decimal128 38 10, .timestampMicrosecond (some "UTC"),
    .timestampMicrosecond none, .int32, .int64, .utf8, .boolean, .float32, .float64, .date32]
  := by
  unfold catalogDataType
  dsimp only
  split
  · decide
  · split
    · split
      · decide
      · decide
    · split <;> decide

/-- The types that the readers give. -/
theorem readDataType_mem (dataType : String) :
  readDataType dataType ∈ [.decimal128 38 10, .boolean, .int16, .int32, .int64, .float32,
    .float64, .utf8, .date32, .timestampNanosecond]
  := by
  unfold readDataType
  dsimp only
  split
  · decide
  · split
    case h_24 => split <;> decide
    all_goals decide

/-- A column is written as text when the writers know its type by no other name. -/
theorem catalogDataType_eq_utf8_iff (dataType : String) :
  catalogDataType dataType = .utf8
    ↔ (startsWith (asciiUppercase dataType) "NUMERIC" = false
        ∧ startsWith (asciiUppercase dataType) "DECIMAL" = false)
      ∧ startsWith (asciiUppercase dataType) "TIMESTAMP" = false
      ∧ asciiUppercase dataType ∉ writtenNames
  := by
  unfold catalogDataType
  dsimp only
  generalize asciiUppercase dataType = upper
  cases hnumeric : startsWith upper "NUMERIC" with
  | true => simp
  | false =>
      cases hdecimal : startsWith upper "DECIMAL" with
      | true => simp
      | false =>
          cases htimestamp : startsWith upper "TIMESTAMP" with
          | true =>
              simp only [Bool.or_self, Bool.false_eq_true, if_false, if_true]
              split <;> simp
          | false =>
              simp only [Bool.or_self, Bool.false_eq_true, if_false, and_self, true_and]
              split
              all_goals simp_all [writtenNames]

theorem readDataType_eq_utf8_iff (dataType : String) :
  readDataType dataType = .utf8
    ↔ (startsWith (asciiLowercase dataType) "numeric" = false
        ∧ startsWith (asciiLowercase dataType) "decimal" = false)
      ∧ startsWith (asciiLowercase dataType) "timestamp" = false
      ∧ asciiLowercase dataType ∉ readNames
  := by
  unfold readDataType
  dsimp only
  generalize asciiLowercase dataType = lower
  cases hnumeric : startsWith lower "numeric" with
  | true => simp
  | false =>
      cases hdecimal : startsWith lower "decimal" with
      | true => simp
      | false =>
          simp only [Bool.or_self, Bool.false_eq_true, if_false, and_self, true_and]
          split
          case h_24 =>
            -- the names the readers know as text are none of the other names
            cases htimestamp : startsWith lower "timestamp" with
            | true => simp
            | false => simp_all [readNames]
          all_goals
            simp [readNames]
          all_goals decide

/-- A spelling that is the name of no type other than text is shown as text. -/
theorem PlainText.shown_eq {dataType : String} (h : PlainText dataType) :
  catalogTypeToArrowDataType dataType = .utf8
  := by
  obtain ⟨htimestamp, huint32, huint64⟩ := h.shown
  have hnames := h.written
  unfold catalogTypeToArrowDataType
  rw [htimestamp]
  simp only [Bool.false_eq_true, if_false]
  split
  case h_6 => exact absurd rfl huint32
  case h_7 => exact absurd rfl huint64
  case h_10 => rfl
  all_goals
    exfalso
    revert hnames
    decide

theorem knownSpellings_alike :
  ∀ spelling ∈ knownSpellings, catalogDataType spelling.1 = spelling.2
    ∧ readDataType spelling.1 = spelling.2 ∧ catalogTypeToArrowDataType spelling.1 = spelling.2
  := by decide

theorem printedTypes_alike :
  ∀ printed ∈ printedTypes, catalogDataType printed.debugText = printed
    ∧ readDataType printed.debugText = printed
    ∧ catalogTypeToArrowDataType printed.debugText = printed
  := by decide

/-- The three tables agree on a type exactly for the spellings with one meaning. -/
theorem spelledAlike_iff (dataType : String) (declared : DataType) :
  catalogDataType dataType = declared ∧ readDataType dataType = declared
      ∧ catalogTypeToArrowDataType dataType = declared
    ↔ SpelledAlike dataType declared
  := by
  constructor
  · rintro ⟨hwritten, hread, hshown⟩
    unfold catalogTypeToArrowDataType at hshown
    split at hshown
    · -- the readers give no microseconds
      exfalso
      have hmem := readDataType_mem dataType
      rw [hread] at hmem
      split at hshown
      · subst hshown
        simp at hmem
      · subst hshown
        simp at hmem
    · rename_i htimestamp
      split at hshown
      case h_6 =>
        subst hshown
        exact absurd hwritten (by decide)
      case h_7 =>
        subst hshown
        exact absurd hwritten (by decide)
      case h_8 =>
        subst hshown
        exact absurd hread (by decide)
      case h_10 =>
        rename_i hne_uint32 hne_uint64 _ _
        subst hshown
        obtain ⟨hdecimal, htimestampWritten, hnames⟩ :=
          (catalogDataType_eq_utf8_iff dataType).mp hwritten
        obtain ⟨hdecimalRead, htimestampRead, hnamesRead⟩ :=
          (readDataType_eq_utf8_iff dataType).mp hread
        right
        exact ⟨rfl, hdecimal, htimestampWritten, hnames, hdecimalRead, htimestampRead, hnamesRead,
          Bool.eq_false_iff.mpr htimestamp, hne_uint32, hne_uint64⟩
      all_goals
        subst hshown
        left
        decide
  · rintro (hknown | ⟨rfl, hplain⟩)
    · exact knownSpellings_alike (dataType, declared) hknown
    · refine ⟨?_, ?_, hplain.shown_eq⟩
      · rw [catalogDataType_eq_utf8_iff]
        exact ⟨hplain.decimal, hplain.timestamp, hplain.written⟩
      · rw [readDataType_eq_utf8_iff]
        exact ⟨hplain.decimalRead, hplain.timestampRead, hplain.read⟩

/-- The three tables agree with what Arrow prints for a type exactly for the printed types. -/
theorem debugText_alike_iff (dataType : DataType) :
  catalogDataType dataType.debugText = dataType ∧ readDataType dataType.debugText = dataType
      ∧ catalogTypeToArrowDataType dataType.debugText = dataType
    ↔ dataType ∈ printedTypes
  := by
  constructor
  · rintro ⟨hwritten, hread, hshown⟩
    have hmem := catalogDataType_mem dataType.debugText
    rw [hwritten] at hmem
    simp only [List.mem_cons, List.not_mem_nil, or_false] at hmem
    obtain rfl | rfl | rfl | rfl | rfl | rfl | rfl | rfl | rfl | rfl := hmem
    · exact absurd hshown (by decide)
    · exact absurd hread (by decide)
    · exact absurd hread (by decide)
    · decide
    · decide
    · decide
    · decide
    · decide
    · decide
    · exact absurd hread (by decide)
  · exact printedTypes_alike dataType

theorem oneMeaning_def (column : CatalogColumn) (declared : DataType) (default : Option String) :
  OneMeaning column declared default
    ↔ (catalogDataType column.dataType = declared ∧ readDataType column.dataType = declared
        ∧ catalogTypeToArrowDataType column.dataType = declared)
      ∧ column.defaultValue = default
  := by
  constructor
  · intro h
    exact ⟨⟨h.written, h.read, h.shown⟩, h.default⟩
  · rintro ⟨⟨hwritten, hread, hshown⟩, hdefault⟩
    exact ⟨hwritten, hread, hshown, hdefault⟩

/-- The writers know what Arrow prints for the types they give. -/
theorem catalogDataType_debugText (dataType : String) :
  catalogDataType (catalogDataType dataType).debugText = catalogDataType dataType
  := by
  have hall : ∀ written ∈ [DataType.decimal128 38 10, .timestampMicrosecond (some "UTC"),
      .timestampMicrosecond none, .int32, .int64, .utf8, .boolean, .float32, .float64, .date32],
      catalogDataType written.debugText = written := by
    decide
  exact hall (catalogDataType dataType) (catalogDataType_mem dataType)

/-- A field has one meaning when it has a printed type. -/
theorem catalogColumnFromField_oneMeaning_iff (field : ArrowField) (default : Option String) :
  OneMeaning (catalogColumnFromField field) field.dataType default
    ↔ field.dataType ∈ printedTypes ∧ default = none
  := by
  obtain ⟨name, dataType, nullable⟩ := field
  rw [oneMeaning_def]
  simp only [catalogColumnFromField]
  rw [debugText_alike_iff, eq_comm]

/-- A column has one meaning, from the statement that declared it to the three tables, if and only
if the condition for its origin holds, whatever the spellings of types mean. -/
theorem oneMeaning_iff (meaning : String → DataType) (origin : ColumnOrigin) :
  OneMeaning origin.stored (origin.declared meaning) origin.declaredDefault
    ↔ origin.MeansOne meaning
  := by
  cases origin with
  | createTable column =>
      simp only [ColumnOrigin.stored, ColumnOrigin.declared, ColumnOrigin.declaredDefault,
        ColumnOrigin.MeansOne]
      by_cases hmeaning : catalogDataType column.dataType = meaning column.dataType
      · have hfield : (definitionField column).dataType = meaning column.dataType := hmeaning
        rw [← hfield, catalogColumnFromField_oneMeaning_iff, hfield]
        exact ⟨fun h => ⟨hmeaning, h⟩, fun h => h.2⟩
      · -- the writers know what they stored, and that is not what was declared
        constructor
        · intro h
          have hwritten := h.written
          simp only [catalogColumnFromField, definitionField] at hwritten
          rw [catalogDataType_debugText] at hwritten
          exact absurd hwritten hmeaning
        · intro h
          exact absurd h.1 hmeaning
  | createTableAs field =>
      simp only [ColumnOrigin.stored, ColumnOrigin.declared, ColumnOrigin.declaredDefault,
        ColumnOrigin.MeansOne, catalogColumnFromField_oneMeaning_iff, and_true]
  | addColumn column =>
      simp only [ColumnOrigin.stored, ColumnOrigin.declared, ColumnOrigin.declaredDefault,
        ColumnOrigin.MeansOne]
      rw [oneMeaning_def, spelledAlike_iff]
      simp only [and_true]
  | alterColumnType dataType column =>
      simp only [ColumnOrigin.stored, ColumnOrigin.declared, ColumnOrigin.declaredDefault,
        ColumnOrigin.MeansOne, AlterColumnOperation.apply]
      rw [oneMeaning_def, spelledAlike_iff]
      simp only [and_true]

/-- The statements store the columns of their origins: the columns of a definition, besides the
row id. -/
theorem catalogColumnsFromSchema_definitions {df : DataFusion}
    (hdf : df.typeText = DataType.debugText) (columns : List CatalogColumn) :
  (columns.map (fun column => (ColumnOrigin.createTable column).stored))
    <+: catalogColumnsFromSchema df (buildArrowSchemaFromDefinitions columns)
  := by
  unfold catalogColumnsFromSchema buildArrowSchemaFromDefinitions
  rw [hdf]
  dsimp only
  split
  · rw [List.map_map]
    exact List.prefix_refl _
  · rw [List.map_append, List.map_map]
    exact List.prefix_append _ _

theorem catalogColumnsFromSchema_fields {df : DataFusion}
    (hdf : df.typeText = DataType.debugText) (schema : Schema) :
  catalogColumnsFromSchema df schema
    = schema.map (fun field => (ColumnOrigin.createTableAs field).stored)
  := by
  unfold catalogColumnsFromSchema
  rw [hdf]
  rfl

/-- `CREATE TABLE` with a column `d DATE`: the files hold dates, and the readers expect text. -/
theorem date_column_two_meanings :
  (ColumnOrigin.createTable ⟨"d", "DATE", true, none⟩).stored = ⟨"d", "Date32", true, none⟩
    ∧ catalogDataType "Date32" = .date32 ∧ readDataType "Date32" = .utf8
    ∧ ∀ meaning : String → DataType,
      ¬ OneMeaning (ColumnOrigin.createTable ⟨"d", "DATE", true, none⟩).stored
        ((ColumnOrigin.createTable ⟨"d", "DATE", true, none⟩).declared meaning) none
  := by
  refine ⟨by decide, by decide, by decide, ?_⟩
  intro meaning h
  have hsame := h.written.trans h.read.symm
  revert hsame
  decide
