import AnalyticsDB.Lib.Quoting
import Mathlib

/-!
# Comma-separated values

A text of comma-separated values is a sequence of records, each ended by a line break or by the end
of the text, and a record is one field or more with commas between them.  A field stands as it is
when it has no comma, quote, carriage return or line feed, and else between quotes, its quotes
doubled.  A line break is a line feed, with or without a carriage return before it.

`read` reads such a text.  What it reads is at most as long as the text, where the fields that
cannot stand as they are count with their quotes.
-/

namespace Csv

open Quoting

/-- A character that a field without quotes cannot have. -/
def special (c : Char) : Bool := c = ',' || c = '"' || c = '\n' || c = '\r'

/-- Where in a text the reader is: at the start of a record or of a field, in a field without
quotes or with quotes, after a quote in the latter, and after a carriage return. -/
inductive Mode where
  | record
  | field
  | plain
  | quoted
  | closed
  | carriageReturn

/-- The records with a character in front of the first field. -/
def withChar (c : Char) : List (List (List Char)) → List (List (List Char))
  | (field :: fields) :: records => ((c :: field) :: fields) :: records
  | records => records

/-- The records with an empty field in front of the first record. -/
def withField : List (List (List Char)) → List (List (List Char))
  | fields :: records => ([] :: fields) :: records
  | [] => []

/-- Read the rest of a text.  But at the start of a record, the first field of what is read is the
rest of the field the reader is in. -/
def read : Mode → List Char → Option (List (List (List Char)))
  | .record, [] => some []
  | .field, [] | .plain, [] | .closed, [] => some [[[]]]
  | .quoted, [] | .carriageReturn, [] => none
  | .carriageReturn, c :: rest => if c = '\n' then (read .record rest).map ([[]] :: ·) else none
  | .quoted, c :: rest =>
    if c = '"' then read .closed rest else (read .quoted rest).map (withChar c)
  | .closed, c :: rest =>
    if c = '"' then (read .quoted rest).map (withChar c)
    else if c = ',' then (read .field rest).map withField
    else if c = '\n' then (read .record rest).map ([[]] :: ·)
    else if c = '\r' then read .carriageReturn rest
    else none
  | .plain, c :: rest =>
    if c = '"' then none
    else if c = ',' then (read .field rest).map withField
    else if c = '\n' then (read .record rest).map ([[]] :: ·)
    else if c = '\r' then read .carriageReturn rest
    else (read .plain rest).map (withChar c)
  | .record, c :: rest | .field, c :: rest =>
    if c = '"' then read .quoted rest
    else if c = ',' then (read .field rest).map withField
    else if c = '\n' then (read .record rest).map ([[]] :: ·)
    else if c = '\r' then read .carriageReturn rest
    else (read .plain rest).map (withChar c)

/-- The records of a text. -/
def records (text : String) : Option (List (List String)) :=
  (read .record text.toList).map (List.map (List.map String.ofList))

example : records "a,\"b \"\"c\"\"\"\n\n,d" = some [["a", "b \"c\""], [""], ["", "d"]] := by
  decide

/-- A field between quotes. -/
def quote (field : List Char) : List Char := '"' :: double '"' field ++ ['"']

/-! ### Reading what is written -/

/-- The records with a text in front of the first field. -/
def withText : List Char → List (List (List Char)) → List (List (List Char))
  | [], records => records
  | c :: text, records => withChar c (withText text records)

theorem withText_cons (text field : List Char) (fields : List (List Char))
    (records : List (List (List Char))) :
  withText text ((field :: fields) :: records) = ((text ++ field) :: fields) :: records
  := by
  induction text with
  | nil => rfl
  | cons c text ih =>
      rw [withText, ih]
      rfl

theorem read_plain_append {text : List Char} (h : ∀ c ∈ text, special c = false)
    (rest : List Char) :
  read .plain (text ++ rest) = (read .plain rest).map (withText text)
  := by
  induction text with
  | nil => exact Option.map_id'.symm
  | cons c text ih =>
      obtain ⟨hc, htext⟩ := List.forall_mem_cons.mp h
      simp only [special, Bool.or_eq_false_iff, decide_eq_false_iff_not] at hc
      obtain ⟨⟨⟨hcomma, hquote⟩, hline⟩, hreturn⟩ := hc
      rw [List.cons_append, read, if_neg hquote, if_neg hcomma, if_neg hline, if_neg hreturn,
        ih htext, Option.map_map]
      rfl

theorem read_quoted_append (text rest : List Char) :
  read .quoted (double '"' text ++ '"' :: rest) = (read .closed rest).map (withText text)
  := by
  induction text with
  | nil =>
      rw [double_nil, List.nil_append, read, if_pos rfl]
      exact Option.map_id'.symm
  | cons c text ih =>
      by_cases hc : c = '"'
      · rw [hc, double_quote, List.cons_append, List.cons_append, read, if_pos rfl, read,
          if_pos rfl, ih, Option.map_map]
        rfl
      · rw [double_char hc, List.cons_append, read, if_neg hc, ih, Option.map_map]
        rfl

/-- A field as it is written, between quotes or as it is. -/
structure Field where
  text : List Char
  quoted : Bool

/-- What is written for a field. -/
def Field.written (field : Field) : List Char :=
  if field.quoted then quote field.text else field.text

/-- A field that has to be written between quotes is. -/
def Field.Safe (field : Field) : Prop := field.text.any special = true → field.quoted = true

/-- A safe field that is followed by a comma or a line feed is read. -/
theorem read_written {field : Field} (h : field.Safe) {start : Mode}
    (hstart : start = .record ∨ start = .field) {c : Char} (hc : c = ',' ∨ c = '\n')
    (rest : List Char) :
  read start (field.written ++ c :: rest) = (read .plain (c :: rest)).map (withText field.text)
  := by
  rw [Field.written]
  split
  · -- between quotes
    have hopen : read start ('"' :: (double '"' field.text ++ '"' :: c :: rest))
        = read .quoted (double '"' field.text ++ '"' :: c :: rest) := by
      rcases hstart with rfl | rfl
      · rw [read, if_pos rfl]
      · rw [read, if_pos rfl]
    have hclosed : read .closed (c :: rest) = read .plain (c :: rest) := by
      rcases hc with rfl | rfl
      · simp [read]
      · simp [read]
    rw [quote, List.cons_append, List.cons_append, List.append_assoc, List.singleton_append, hopen,
      read_quoted_append, hclosed]
  · -- as it is
    rename_i hquoted
    have hplain : ∀ d ∈ field.text, special d = false := by
      intro d hd
      by_contra hspecial
      exact hquoted (h (List.any_eq_true.mpr ⟨d, hd, by simpa using hspecial⟩))
    rw [← read_plain_append hplain]
    cases htext : field.text with
    | nil =>
        rcases hc with rfl | rfl <;> rcases hstart with rfl | rfl <;> simp [read]
    | cons d text =>
        have hd := hplain d (by simp [htext])
        simp only [special, Bool.or_eq_false_iff, decide_eq_false_iff_not] at hd
        rcases hstart with rfl | rfl <;> simp [read, hd]

/-- A record as it is written. -/
def writtenRecord (fields : List Field) : List Char :=
  [','].intercalate (fields.map Field.written) ++ ['\n']

/-- A record of safe fields is read. -/
theorem read_writtenRecord {fields : List Field} (hfields : fields ≠ [])
    (h : ∀ field ∈ fields, field.Safe) {start : Mode} (hstart : start = .record ∨ start = .field)
    (rest : List Char) :
  read start (writtenRecord fields ++ rest)
    = (read .record rest).map (fields.map Field.text :: ·)
  := by
  induction fields generalizing start with
  | nil => exact absurd rfl hfields
  | cons field fields ih =>
      obtain ⟨hfield, hrest⟩ := List.forall_mem_cons.mp h
      cases fields with
      | nil =>
          simp only [writtenRecord, List.map_cons, List.map_nil, List.intercalate_singleton,
            List.append_assoc, List.singleton_append]
          rw [read_written hfield hstart (.inr rfl)]
          simp only [read, Char.reduceEq, if_false, if_true, Option.map_map]
          congr 1
          funext records
          rw [Function.comp_apply, withText_cons, List.append_nil]
      | cons next fields =>
          have hwritten : writtenRecord (field :: next :: fields) ++ rest
              = field.written ++ ',' :: (writtenRecord (next :: fields) ++ rest) := by
            simp [writtenRecord, List.intercalate]
          rw [hwritten, read_written hfield hstart (.inl rfl)]
          simp only [read, Char.reduceEq, if_false, if_true]
          rw [ih (by simp) hrest (.inr rfl), Option.map_map, Option.map_map]
          congr 1
          funext records
          simp only [Function.comp_apply, withField, withText_cons, List.append_nil, List.map_cons]

/-- Records as they are written. -/
def written (records : List (List Field)) : List Char := records.flatMap writtenRecord

/-- Records of safe fields are read. -/
theorem read_of_safe {records : List (List Field)} (hrecords : ∀ fields ∈ records, fields ≠ [])
    (h : ∀ fields ∈ records, ∀ field ∈ fields, field.Safe) :
  read .record (written records) = some (records.map (List.map Field.text))
  := by
  induction records with
  | nil => rfl
  | cons fields records ih =>
      obtain ⟨hfields, hrest⟩ := List.forall_mem_cons.mp hrecords
      obtain ⟨hsafe, hsafeRest⟩ := List.forall_mem_cons.mp h
      rw [written, List.flatMap_cons, read_writtenRecord hfields hsafe (.inl rfl)]
      rw [written] at ih
      rw [ih hrest hsafeRest]
      rfl

/-! ### The length of what is read -/

/-- The characters a field takes at least. -/
def weight (field : List Char) : Nat :=
  if field.any special then (double '"' field).length + 2 else field.length

/-- The characters fields take at least, each with a comma or a line feed. -/
def fieldsWeight (fields : List (List Char)) : Nat := (fields.map (fun f => weight f + 1)).sum

/-- The characters records take at least. -/
def recordsWeight (records : List (List (List Char))) : Nat := (records.map fieldsWeight).sum

/-- The characters the rest of a field takes at least, by where in it the reader is. -/
def restWeight (field : List Char) : Mode → Nat
  | .record | .field => weight field
  | .plain => field.length
  | .closed => (double '"' field).length
  | .quoted => (double '"' field).length + 1
  | .carriageReturn => 0

/-- What the rest of a field is like. -/
def RestOf (field : List Char) : Mode → Prop
  | .plain => field.any special = false
  | .carriageReturn => field = []
  | _ => True

/-- What is read is not longer than the rest of the text, of this length. -/
def Fits (start : Mode) (length : Nat) (records : List (List (List Char))) : Prop :=
  ∃ field fields rest, records = (field :: fields) :: rest ∧ RestOf field start
    ∧ restWeight field start + fieldsWeight fields + recordsWeight rest ≤ length

theorem length_le_weight (field : List Char) :
  field.length ≤ weight field
  := by
  unfold weight
  split
  · exact Nat.le_add_right_of_le (length_le_double field)
  · exact le_rfl

theorem weight_le_double (field : List Char) :
  weight field ≤ (double '"' field).length + 2
  := by
  unfold weight
  split
  · exact le_rfl
  · rename_i hplain
    rw [double_eq_self]
    · omega
    · intro hquote
      exact hplain (List.any_eq_true.mpr ⟨'"', hquote, by decide⟩)

theorem weight_plain {field : List Char} (h : field.any special = false) :
  weight field = field.length
  := by
  rw [weight, h]
  rfl

theorem recordsWeight_cons (field : List Char) (fields : List (List Char))
    (rest : List (List (List Char))) :
  recordsWeight ((field :: fields) :: rest)
    = weight field + 1 + fieldsWeight fields + recordsWeight rest
  := by
  simp only [recordsWeight, fieldsWeight, List.map_cons, List.sum_cons]

/-- At the end of a field the reader has read a field, whatever the mode. -/
theorem fits_end {c : Char} (hc : c = ',' ∨ c = '\n' ∨ c = '\r') {text : List Char}
    {records : List (List (List Char))} (h : read .plain (c :: text) = some records)
    (hfield : ∀ records, read .field text = some records → Fits .field text.length records)
    (hrecord : ∀ records, read .record text = some records →
      recordsWeight records ≤ text.length + 1)
    (hreturn : ∀ records, read .carriageReturn text = some records →
      Fits .carriageReturn text.length records) :
  ∃ fields rest, records = ([] :: fields) :: rest
    ∧ fieldsWeight fields + recordsWeight rest ≤ text.length + 1
  := by
  rcases hc with rfl | rfl | rfl
  · simp only [read, Char.reduceEq, if_false, if_true, Option.map_eq_some_iff] at h
    obtain ⟨records, hread, rfl⟩ := h
    obtain ⟨field, fields, rest, rfl, -, hlength⟩ := hfield records hread
    refine ⟨field :: fields, rest, rfl, ?_⟩
    simp only [restWeight] at hlength
    simp only [fieldsWeight, List.map_cons, List.sum_cons] at hlength ⊢
    omega
  · simp only [read, Char.reduceEq, if_false, if_true, Option.map_eq_some_iff] at h
    obtain ⟨records, hread, rfl⟩ := h
    refine ⟨[], records, rfl, ?_⟩
    have hlength := hrecord records hread
    simpa [fieldsWeight] using hlength
  · simp only [read, Char.reduceEq, if_false, if_true] at h
    obtain ⟨field, fields, rest, rfl, hempty, hlength⟩ := hreturn records h
    rw [RestOf] at hempty
    rw [hempty]
    refine ⟨fields, rest, rfl, ?_⟩
    rw [restWeight] at hlength
    omega

/-- What ends a field without quotes ends it in the other modes, too. -/
theorem read_end {c : Char} (hc : c = ',' ∨ c = '\n' ∨ c = '\r') (text : List Char) :
  read .closed (c :: text) = read .plain (c :: text)
    ∧ read .field (c :: text) = read .plain (c :: text)
  := by
  rcases hc with rfl | rfl | rfl <;> simp [read]

theorem special_cases (c : Char) :
  c = '"' ∨ (c = ',' ∨ c = '\n' ∨ c = '\r') ∨ special c = false
  := by
  by_cases hspecial : special c = true
  · simp only [special, Bool.or_eq_true, decide_eq_true_eq] at hspecial
    tauto
  · exact .inr (.inr (by simpa using hspecial))

/-- A character that is read adds to the first field. -/
theorem Fits.withChar {start next : Mode} {c : Char} {length : Nat}
    {records : List (List (List Char))} (h : Fits next length records)
    (hrest : ∀ field, RestOf field next → RestOf (c :: field) start
      ∧ restWeight (c :: field) start ≤ restWeight field next + 1) :
  Fits start (length + 1) (withChar c records)
  := by
  obtain ⟨field, fields, rest, rfl, hfield, hlength⟩ := h
  obtain ⟨hcons, hweight⟩ := hrest field hfield
  refine ⟨c :: field, fields, rest, rfl, hcons, ?_⟩
  omega

/-- What is read takes at least its weight. -/
theorem fits_of_read (text : List Char) :
  (∀ records, read .record text = some records → recordsWeight records ≤ text.length + 1)
    ∧ ∀ start, start ≠ .record → ∀ records, read start text = some records →
      Fits start text.length records
  := by
  induction text with
  | nil =>
      constructor
      · intro records h
        cases h
        exact Nat.zero_le _
      · intro start hstart records h
        cases start with
        | record => exact absurd rfl hstart
        | quoted | carriageReturn => cases h
        | field | plain | closed =>
            cases h
            exact ⟨[], [], [], rfl, by first | exact trivial | rfl, by decide⟩
  | cons c text ih =>
      obtain ⟨hrecord, hother⟩ := ih
      have hend : (c = ',' ∨ c = '\n' ∨ c = '\r') → ∀ start, RestOf [] start →
          restWeight [] start = 0 → ∀ records, read .plain (c :: text) = some records →
          Fits start (text.length + 1) records := by
        intro hc start hempty hweight records h
        obtain ⟨fields, rest, rfl, hlength⟩ := fits_end hc h (hother .field (by simp)) hrecord
          (hother .carriageReturn (by simp))
        exact ⟨[], fields, rest, rfl, hempty, by omega⟩
      have hclosed : ∀ records, read .closed (c :: text) = some records →
          Fits .closed (text.length + 1) records := by
        intro records h
        rcases special_cases c with rfl | hc | hc
        · simp only [read, if_true, Option.map_eq_some_iff] at h
          obtain ⟨records, hread, rfl⟩ := h
          apply (hother .quoted (by simp) records hread).withChar
          intro field _
          refine ⟨trivial, ?_⟩
          simp [restWeight, double_quote]
        · rw [(read_end hc text).1] at h
          exact hend hc .closed trivial rfl records h
        · simp only [special, Bool.or_eq_false_iff, decide_eq_false_iff_not] at hc
          simp [read, hc] at h
      have hquoted : ∀ records, read .quoted (c :: text) = some records →
          Fits .quoted (text.length + 1) records := by
        intro records h
        rw [read] at h
        split at h
        · obtain ⟨field, fields, rest, rfl, -, hlength⟩ := hother .closed (by simp) records h
          refine ⟨field, fields, rest, rfl, trivial, ?_⟩
          simp only [restWeight] at hlength ⊢
          omega
        · rename_i hc
          rw [Option.map_eq_some_iff] at h
          obtain ⟨records, hread, rfl⟩ := h
          apply (hother .quoted (by simp) records hread).withChar
          intro field _
          refine ⟨trivial, ?_⟩
          simp [restWeight, double_char hc]
      -- a character of a field without quotes
      have hchar : ∀ start, (∀ field, field.any special = false → RestOf field start
          ∧ restWeight field start ≤ field.length) → special c = false → ∀ records,
          (read .plain text).map (withChar c) = some records →
          Fits start (text.length + 1) records := by
        intro start hstart hc records h
        rw [Option.map_eq_some_iff] at h
        obtain ⟨records, hread, rfl⟩ := h
        apply (hother .plain (by simp) records hread).withChar
        intro field hfield
        have hcons := hstart (c :: field) (by rw [List.any_cons, hc]; exact hfield)
        exact ⟨hcons.1, hcons.2⟩
      have hplain : ∀ records, read .plain (c :: text) = some records →
          Fits .plain (text.length + 1) records := by
        intro records h
        rcases special_cases c with rfl | hc | hc
        · simp [read] at h
        · exact hend hc .plain rfl rfl records h
        · apply hchar .plain (fun field hfield => ⟨hfield, le_rfl⟩) hc
          simp only [special, Bool.or_eq_false_iff, decide_eq_false_iff_not] at hc
          simpa only [read, hc, if_false] using h
      have hfield : ∀ records, read .field (c :: text) = some records →
          Fits .field (text.length + 1) records := by
        intro records h
        rcases special_cases c with rfl | hc | hc
        · rw [read, if_pos rfl] at h
          obtain ⟨field, fields, rest, rfl, -, hlength⟩ := hother .quoted (by simp) records h
          refine ⟨field, fields, rest, rfl, trivial, ?_⟩
          have hweight := weight_le_double field
          simp only [restWeight] at hlength ⊢
          omega
        · rw [(read_end hc text).2] at h
          exact hend hc .field trivial rfl records h
        · apply hchar .field (fun field hfield => ⟨trivial, (weight_plain hfield).le⟩) hc
          simp only [special, Bool.or_eq_false_iff, decide_eq_false_iff_not] at hc
          simpa only [read, hc, if_false] using h
      constructor
      · intro records h
        have hsame : read .record (c :: text) = read .field (c :: text) := by rw [read, read]
        rw [hsame] at h
        obtain ⟨field, fields, rest, rfl, -, hlength⟩ := hfield records h
        rw [recordsWeight_cons, List.length_cons]
        rw [restWeight] at hlength
        omega
      · intro start hstart records h
        cases start with
        | record => exact absurd rfl hstart
        | field => exact hfield records h
        | plain => exact hplain records h
        | quoted => exact hquoted records h
        | closed => exact hclosed records h
        | carriageReturn =>
            rw [read] at h
            split at h
            · rw [Option.map_eq_some_iff] at h
              obtain ⟨records, hread, rfl⟩ := h
              refine ⟨[], [], records, rfl, rfl, ?_⟩
              simpa [restWeight, fieldsWeight] using hrecord records hread
            · cases h

/-! ### What is read back -/

theorem length_writtenRecord {fields : List Field} (h : fields ≠ []) :
  (writtenRecord fields).length = (fields.map (fun field => field.written.length + 1)).sum
  := by
  induction fields with
  | nil => exact absurd rfl h
  | cons field fields ih =>
      cases fields with
      | nil => simp [writtenRecord]
      | cons next fields =>
          have hwritten : writtenRecord (field :: next :: fields)
              = field.written ++ ',' :: writtenRecord (next :: fields) := by
            simp [writtenRecord, List.intercalate]
          rw [hwritten, List.length_append, List.length_cons, ih (by simp)]
          simp only [List.map_cons, List.sum_cons]
          omega

theorem length_written {records : List (List Field)} (h : ∀ fields ∈ records, fields ≠ []) :
  (written records).length
    = (records.flatten.map (fun field => field.written.length + 1)).sum
  := by
  induction records with
  | nil => rfl
  | cons fields records ih =>
      obtain ⟨hfields, hrest⟩ := List.forall_mem_cons.mp h
      have hlength := ih hrest
      rw [written] at hlength ⊢
      rw [List.flatMap_cons, List.length_append, length_writtenRecord hfields, hlength,
        List.flatten_cons, List.map_append, List.sum_append]

theorem recordsWeight_texts (records : List (List Field)) :
  recordsWeight (records.map (List.map Field.text))
    = (records.flatten.map (fun field => weight field.text + 1)).sum
  := by
  induction records with
  | nil => rfl
  | cons fields records ih =>
      rw [recordsWeight] at ih ⊢
      rw [List.map_cons, List.map_cons, List.sum_cons, ih, List.flatten_cons, List.map_append,
        List.sum_append, fieldsWeight, List.map_map]
      rfl

/-- A field that is quoted only if it has to be is written with at most its weight. -/
theorem length_written_le_weight {field : Field}
    (h : field.quoted = true → field.text.any special = true) :
  field.written.length ≤ weight field.text
  := by
  rw [Field.written]
  split
  · rename_i hquoted
    rw [weight, if_pos (h hquoted), quote, List.cons_append, List.length_cons, List.length_append]
    exact le_rfl
  · apply length_le_weight

/-- Records whose fields are quoted only if they have to be are read back exactly when they are
quoted if they have to be. -/
theorem read_written_iff {records : List (List Field)} (hrecords : ∀ fields ∈ records, fields ≠ [])
    (hquoted : ∀ fields ∈ records, ∀ field ∈ fields,
      field.quoted = true → field.text.any special = true) :
  read .record (written records) = some (records.map (List.map Field.text))
    ↔ ∀ fields ∈ records, ∀ field ∈ fields, field.Safe
  := by
  constructor
  · intro h fields hfields field hfield hspecial
    by_contra hraw
    -- a field that lacks its quotes makes the text too short
    have hweight : field.written.length + 2 ≤ weight field.text := by
      rw [Field.written, if_neg hraw, weight, if_pos hspecial]
      have hle : field.text.length ≤ (double '"' field.text).length := length_le_double _
      omega
    have hlength := (fits_of_read _).1 _ h
    rw [recordsWeight_texts, length_written hrecords] at hlength
    obtain ⟨before, after, hsplit⟩ :=
      List.append_of_mem (List.mem_flatten.mpr ⟨fields, hfields, hfield⟩)
    have hle : ∀ list : List Field, (∀ other ∈ list, other ∈ records.flatten) →
        (list.map (fun field => field.written.length + 1)).sum
          ≤ (list.map (fun field => weight field.text + 1)).sum := by
      intro list hlist
      apply List.sum_le_sum
      intro other hother
      obtain ⟨fields, hfields, hmem⟩ := List.mem_flatten.mp (hlist other hother)
      exact Nat.succ_le_succ (length_written_le_weight (hquoted fields hfields other hmem))
    have hbefore := hle before (by intro other hother; simp [hsplit, hother])
    have hafter := hle after (by intro other hother; simp [hsplit, hother])
    rw [hsplit] at hlength
    simp only [List.map_append, List.map_cons, List.sum_append, List.sum_cons] at hlength
    omega
  · intro h
    exact read_of_safe hrecords h

end Csv
