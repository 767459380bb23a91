import AnalyticsDB.Lib.Quoting
import AnalyticsDB.Protocol.SettingTexts
import Mathlib

/-!
# The timeout of statements

SET keeps the text of a timeout as it is written, and the session reads it when a statement runs.
The reading knows no quotes, and takes every text that it cannot read for no timeout.
-/

namespace Postgres

open Quoting

/-! ### What a text means -/

/-- The units of durations, in milliseconds. -/
def durationUnits : List (String × ℕ) :=
  [("", 1), ("ms", 1), ("s", 1000), ("min", 60000), ("h", 3600000)]

/-- The duration a text stands for: a number, white space, and a unit. -/
def duration? (text : String) : Option ℕ :=
  let digits := text.toList.takeWhile Char.isDigit
  let unit := (text.toList.dropWhile Char.isDigit).dropWhile isWhiteSpace
  if digits = [] then none
  else (durationUnits.find? (·.1.toList = unit)).bind (fun unit =>
    let duration := Nat.ofDigitChars 10 digits 0 * unit.2
    if duration ≤ u64Max then some duration else none)

/-- The text of a literal between single quotes. -/
def literal? (value : String) : Option String :=
  match value.toList with
  | '\'' :: rest =>
    if rest.getLast? = some '\'' then (undouble '\'' rest.dropLast).map String.ofList else none
  | _ => none

/-- The timeout that a value of SET stands for. -/
def meaning (value : String) : Option ℕ :=
  if asciiUpper value = "DEFAULT" then some 0
  else (duration? value).orElse (fun _ =>
    (literal? value).bind (fun text => duration? (trimWhiteSpace text)))

example : meaning "5s" = some 5000 ∧ meaning "' 2 min'" = some 120000
    ∧ meaning "5 days" = none := by decide +kernel

/-! ### What SET does -/

/-- What the connection keeps after a statement about the session. -/
def executeSet (client : Metadata) (sql : String) : Except String Metadata := do
  let statement ← parsePostgresSetStatement sql
  let (client, _) ← applyPostgresSessionStatement client statement
  return client

def statementTimeout (client : Metadata) : ℕ :=
  (postgresSessionFromClient client).statementTimeoutMs

/-- A statement for a timeout takes effect: it is refused when it stands for none, and otherwise the
timeout is in force, and shown. -/
def TakesEffect (client : Metadata) (sql : String) (timeout : Option ℕ) : Prop :=
  (∃ message, executeSet client sql = .error message ∧ timeout = none)
    ∨ ∃ client', executeSet client sql = .ok client' ∧ timeout = some (statementTimeout client')
      ∧ ∃ shown, effectivePostgresSetting client' "statement_timeout" = .ok shown
        ∧ meaning shown = some (statementTimeout client')

theorem takesEffect_error {client : Metadata} {sql message : String} {timeout : Option ℕ}
    (h : executeSet client sql = .error message) :
  TakesEffect client sql timeout ↔ timeout = none
  := by
  constructor
  · rintro (⟨_, -, htimeout⟩ | ⟨client', hok, -⟩)
    · exact htimeout
    · cases h.symm.trans hok
  · exact fun htimeout => .inl ⟨message, h, htimeout⟩

theorem takesEffect_ok {client client' : Metadata} {sql : String} {timeout : Option ℕ}
    (h : executeSet client sql = .ok client') :
  TakesEffect client sql timeout ↔ timeout = some (statementTimeout client')
    ∧ ∃ shown, effectivePostgresSetting client' "statement_timeout" = .ok shown
      ∧ meaning shown = some (statementTimeout client')
  := by
  constructor
  · rintro (⟨message, herror, -⟩ | ⟨other, hok, heffect⟩)
    · cases h.symm.trans herror
    · obtain rfl := Except.ok.inj (h.symm.trans hok)
      exact heffect
  · exact fun heffect => .inr ⟨client', h, heffect⟩

/-- The value is a duration without quotes, or no timeout, or it is no duration and has a TO between
blanks after an equals sign. -/
def TakesText (assignment : Assignment) (value : String) : Prop :=
  (duration? value).isSome = true ∨ meaning value = some 0
    ∨ (meaning value = none ∧ ¬ assignment.Splits value)

instance (assignment : Assignment) (value : String) : Decidable (TakesText assignment value) :=
  inferInstanceAs (Decidable (_ ∨ _ ∨ (_ ∧ ¬ _)))

/-! ### Reading a timeout -/

theorem stripEnd?_append (text : List Char) (ending : String) :
  stripEnd? (String.ofList (text ++ ending.toList)) ending = some (String.ofList text)
  := by
  have hsuffix : ending.toList.isSuffixOf (text ++ ending.toList) = true :=
    List.isSuffixOf_iff_suffix.mpr (List.suffix_append _ _)
  rw [stripEnd?, String.toList_ofList, hsuffix, if_pos rfl, ← String.length_toList,
    ← String.length_toList, String.toList_ofList, List.length_append, Nat.add_sub_cancel,
    List.take_left]

/-- A text does not end with another one where their last characters differ. -/
theorem stripEnd?_eq_none {text : String} {ending : String}
    (h : ∃ n, n < ending.length ∧ ending.toList.reverse[n]? ≠ text.toList.reverse[n]?) :
  stripEnd? text ending = none
  := by
  obtain ⟨n, hn, hne⟩ := h
  rw [stripEnd?, if_neg]
  rw [List.isSuffixOf_iff_suffix, ← List.reverse_prefix]
  rintro ⟨more, hmore⟩
  apply hne
  rw [← hmore, List.getElem?_append_left]
  rw [List.length_reverse, String.length_toList]
  exact hn

/-- The last characters of the units that `d` is none of. -/
theorem unit_ends {ending : String} (h : ending ∈ ["ms", "min", "h", "s"]) :
  0 < ending.length ∧ ∃ c ∈ ['s', 'n', 'h'], ending.toList.reverse[0]? = some c
  := by
  have hends : ∀ ending ∈ ["ms", "min", "h", "s"], 0 < ending.length
      ∧ ending.toList.reverse[0]? ∈ ['s', 'n', 'h'].map some := by decide
  obtain ⟨hpos, hmem⟩ := hends ending h
  obtain ⟨c, hc, hend⟩ := List.mem_map.mp hmem
  exact ⟨hpos, c, hc, hend.symm⟩

theorem parseU64_digits {digits : List Char} (hne : digits ≠ [])
    (hdigits : digits.all Char.isDigit = true) (hle : Nat.ofDigitChars 10 digits 0 ≤ u64Max) :
  parseU64 (String.ofList digits) = some (Nat.ofDigitChars 10 digits 0)
  := by
  have hplus : ∀ rest, digits ≠ '+' :: rest := by
    rintro rest rfl
    rw [List.all_cons, Bool.and_eq_true] at hdigits
    exact absurd hdigits.1 (by decide)
  rw [parseU64, String.toList_ofList]
  split
  case h_1 rest => exact absurd rfl (hplus rest)
  case h_2 => rw [if_pos ⟨hne, hdigits, hle⟩]

/-- What starts with a single quote is no number. -/
theorem parseU64_quote {text : String} {rest : List Char} (h : text.toList = '\'' :: rest) :
  parseU64 text = none
  := by
  rw [parseU64, h, if_neg]
  rintro ⟨-, hdigits, -⟩
  have hdigits : ('\'' :: rest).all Char.isDigit = true := hdigits
  rw [List.all_cons, Bool.and_eq_true] at hdigits
  exact absurd hdigits.1 (by decide)

/-- A duration is a number, white space and a unit. -/
theorem duration?_eq_some {text : String} {duration : ℕ} (h : duration? text = some duration) :
  ∃ digits space unit factor, text.toList = digits ++ space ++ unit.toList ∧ digits ≠ []
    ∧ digits.all Char.isDigit = true ∧ space.all isWhiteSpace = true
    ∧ (unit, factor) ∈ durationUnits ∧ duration = Nat.ofDigitChars 10 digits 0 * factor
    ∧ duration ≤ u64Max
  := by
  rw [duration?] at h
  split at h
  case isTrue => cases h
  case isFalse hne =>
    obtain ⟨unit, hunit, h⟩ := Option.bind_eq_some_iff.mp h
    dsimp only at h
    split at h
    case isFalse => cases h
    case isTrue hle =>
      cases h
      have hdigits := List.takeWhile_append_dropWhile (p := Char.isDigit) (l := text.toList)
      have hspace := List.takeWhile_append_dropWhile (p := isWhiteSpace)
        (l := text.toList.dropWhile Char.isDigit)
      have hlist := List.find?_some hunit
      rw [decide_eq_true_eq] at hlist
      refine ⟨text.toList.takeWhile Char.isDigit,
        (text.toList.dropWhile Char.isDigit).takeWhile isWhiteSpace, unit.1, unit.2, ?_, hne,
        List.all_takeWhile, List.all_takeWhile, List.mem_of_find?_eq_some hunit, rfl, hle⟩
      rw [hlist, List.append_assoc, hspace, hdigits]

theorem isWhiteSpace_of_isDigit {c : Char} (h : c.isDigit = true) :
  isWhiteSpace c = false
  := by
  have hrange : 48 ≤ c.toNat ∧ c.toNat ≤ 57 := by
    simpa [Char.isDigit, UInt32.le_iff_toNat_le] using h
  simp only [isWhiteSpace, Bool.or_eq_false_iff, Bool.and_eq_false_iff, decide_eq_false_iff_not,
    beq_eq_false_iff_ne]
  omega

/-- A number before white space is read. -/
theorem parseU64_trim {digits space : List Char} (hne : digits ≠ [])
    (hdigits : digits.all Char.isDigit = true) (hspace : space.all isWhiteSpace = true)
    (hle : Nat.ofDigitChars 10 digits 0 ≤ u64Max) :
  parseU64 (trimWhiteSpace (String.ofList (digits ++ space)))
    = some (Nat.ofDigitChars 10 digits 0)
  := by
  have htrim : trimWhiteSpace (String.ofList digits) = String.ofList digits := by
    rw [List.all_eq_true] at hdigits
    apply trimWhiteSpace_of_ends
    · intro c hc
      rw [String.toList_ofList] at hc
      exact isWhiteSpace_of_isDigit (hdigits c (List.mem_of_mem_head? hc))
    · intro c hc
      rw [String.toList_ofList] at hc
      exact isWhiteSpace_of_isDigit (hdigits c (List.mem_of_mem_getLast? hc))
  rw [trimWhiteSpace_append hspace, htrim, parseU64_digits hne hdigits hle]

/-- A duration is read as it is meant. -/
theorem parseTimeoutToMs_duration {text : String} {duration : ℕ} (hbare : Bare text)
    (h : duration? text = some duration) :
  parseTimeoutToMs text = duration
  := by
  obtain ⟨digits, space, unit, factor, htext, hne, hdigits, hspace, hunit, rfl, hle⟩ :=
    duration?_eq_some h
  have hfactor : 0 < factor := by
    simp only [durationUnits, List.mem_cons, Prod.mk.injEq, List.not_mem_nil, or_false] at hunit
    omega
  have hnumber : Nat.ofDigitChars 10 digits 0 ≤ u64Max :=
    le_trans (Nat.le_mul_of_pos_right _ hfactor) hle
  have hparse := parseU64_trim hne hdigits hspace hnumber
  obtain ⟨b, more, hbody⟩ := List.exists_cons_of_ne_nil
    (show (digits ++ space).reverse ≠ [] by simp [hne])
  have hmore : text.toList.reverse = unit.toList.reverse ++ b :: more := by
    rw [htext, List.reverse_append, hbody]
  -- the last character before the unit is no letter
  have hletter : ∀ c, c.isDigit = false → isWhiteSpace c = false → b ≠ c := by
    rintro c hdigit hwhite rfl
    have hb : b ∈ digits ++ space := by
      rw [← List.mem_reverse, hbody]
      exact List.mem_cons_self
    obtain hb | hb := List.mem_append.mp hb
    · rw [List.all_eq_true.mp hdigits b hb] at hdigit
      cases hdigit
    · rw [List.all_eq_true.mp hspace b hb] at hwhite
      cases hwhite
  have htextOf : text = String.ofList (digits ++ space ++ unit.toList) := by
    rw [← htext, String.ofList_toList]
  have hscaled : min (Nat.ofDigitChars 10 digits 0 * factor) u64Max
      = Nat.ofDigitChars 10 digits 0 * factor := Nat.min_eq_left hle
  rw [parseTimeoutToMs]
  dsimp only
  rw [hbare.trimWhiteSpace]
  split
  case isTrue hzero =>
    have hnonempty : text.isEmpty = false := by
      rw [Bool.eq_false_iff, Ne, String.isEmpty_iff, ← String.toList_eq_nil_iff]
      exact hbare.nonempty
    rw [hnonempty, Bool.or_false, decide_eq_true_eq] at hzero
    obtain ⟨c, rest, rfl⟩ := List.exists_cons_of_ne_nil hne
    rw [hzero] at htext
    obtain ⟨rfl, hnil⟩ :=
      List.cons.inj (show ['0'] = c :: (rest ++ space ++ unit.toList) from htext)
    have hrest : rest = [] := by
      rw [eq_comm, List.append_assoc, List.append_eq_nil_iff] at hnil
      exact hnil.1
    rw [hrest, show Nat.ofDigitChars 10 ['0'] 0 = 0 from rfl, Nat.zero_mul]
  case isFalse =>
    simp only [durationUnits, List.mem_cons, Prod.mk.injEq, List.not_mem_nil, or_false] at hunit
    obtain ⟨rfl, rfl⟩ | ⟨rfl, rfl⟩ | ⟨rfl, rfl⟩ | ⟨rfl, rfl⟩ | ⟨rfl, rfl⟩ := hunit
    · have hnone : ∀ ending ∈ ["ms", "min", "h", "s"], stripEnd? text ending = none := by
        intro ending hending
        have hplain : ∀ c ∈ ['s', 'n', 'h'], c.isDigit = false ∧ isWhiteSpace c = false :=
          forall_mem_of_all (by decide)
        obtain ⟨hpos, c, hc, hend⟩ := unit_ends hending
        apply stripEnd?_eq_none ⟨0, hpos, ?_⟩
        rw [hmore, hend]
        exact fun h => hletter c (hplain c hc).1 (hplain c hc).2 (Option.some.inj h).symm
      rw [hnone _ (by simp), hnone _ (by simp), hnone _ (by simp), hnone _ (by simp)]
      dsimp only
      have hwhole : text = String.ofList (digits ++ space) := by
        rw [htextOf, show "".toList = [] from rfl, List.append_nil]
      rw [← hbare.trimWhiteSpace, hwhole, hparse, Nat.mul_one]
      rfl
    · rw [htextOf, stripEnd?_append]
      dsimp only
      rw [hparse]
      simp
    · have hms : stripEnd? text "ms" = none :=
        stripEnd?_eq_none ⟨1, by decide, by
          rw [hmore]
          exact fun h => hletter 'm' rfl rfl (Option.some.inj h).symm⟩
      have hmin : stripEnd? text "min" = none :=
        stripEnd?_eq_none ⟨0, by decide, by
          rw [hmore]
          exact fun h => absurd (Option.some.inj h) (by decide)⟩
      have hh : stripEnd? text "h" = none :=
        stripEnd?_eq_none ⟨0, by decide, by
          rw [hmore]
          exact fun h => absurd (Option.some.inj h) (by decide)⟩
      rw [hms, hmin, hh, htextOf, stripEnd?_append]
      dsimp only
      rw [hparse]
      exact hscaled
    · have hms : stripEnd? text "ms" = none :=
        stripEnd?_eq_none ⟨0, by decide, by
          rw [hmore]
          exact fun h => absurd (Option.some.inj h) (by decide)⟩
      rw [hms, htextOf, stripEnd?_append]
      dsimp only
      rw [hparse]
      exact hscaled
    · have hms : stripEnd? text "ms" = none :=
        stripEnd?_eq_none ⟨0, by decide, by
          rw [hmore]
          exact fun h => absurd (Option.some.inj h) (by decide)⟩
      have hmin : stripEnd? text "min" = none :=
        stripEnd?_eq_none ⟨0, by decide, by
          rw [hmore]
          exact fun h => absurd (Option.some.inj h) (by decide)⟩
      rw [hms, hmin, htextOf, stripEnd?_append]
      dsimp only
      rw [hparse]
      exact hscaled

/-- A literal is a text between quotes, doubled in it. -/
theorem literal?_eq_some {text inner : String} (h : literal? text = some inner) :
  text.toList = '\'' :: (double '\'' inner.toList ++ ['\''])
  := by
  rw [literal?] at h
  split at h
  case h_2 => cases h
  case h_1 rest htext =>
    split at h
    case isFalse => cases h
    case isTrue hlast =>
      obtain ⟨chars, hchars, rfl⟩ := Option.map_eq_some_iff.mp h
      rw [htext, String.toList_ofList, ← eq_double_of_undouble hchars,
        List.dropLast_append_getLast? _ hlast]

/-- Doubling brings in no other characters. -/
theorem mem_of_mem_double {c q : Char} {chars : List Char} (hc : c ≠ q) (h : c ∈ double q chars) :
  c ∈ chars
  := by
  obtain ⟨d, hd, hmem⟩ := List.mem_flatMap.mp h
  split at hmem
  · simp [hc] at hmem
  · rw [List.mem_singleton.mp hmem]
    exact hd

/-- What stands between single quotes is read as no timeout. -/
theorem parseTimeoutToMs_literal {text inner : String} (hbare : Bare text)
    (h : literal? text = some inner) :
  parseTimeoutToMs text = 0
  := by
  have htext := literal?_eq_some h
  have hnone : ∀ ending ∈ ["ms", "min", "h", "s"], stripEnd? text ending = none := by
    intro ending hending
    obtain ⟨hpos, c, hc, hend⟩ := unit_ends hending
    apply stripEnd?_eq_none ⟨0, hpos, ?_⟩
    rw [htext, hend, ← List.cons_append, List.reverse_append]
    intro hsame
    have hquote : c = '\'' := Option.some.inj hsame
    rw [hquote] at hc
    revert hc
    decide
  rw [parseTimeoutToMs]
  dsimp only
  rw [hbare.trimWhiteSpace]
  split
  · rfl
  · rw [hnone _ (by simp), hnone _ (by simp), hnone _ (by simp), hnone _ (by simp)]
    dsimp only
    rw [parseU64_quote htext]
    rfl

/-! ### Setting a timeout -/

theorem eq_of_toUpper_eq {c : Char} (h : c.toUpper = 'O') :
  c = 'o' ∨ c = 'O'
  := by
  rw [Char.toUpper] at h
  split at h
  · left
    have hval := congrArg Char.val h
    have hshift : 'O'.val = 'o'.val + ('A'.val - 'a'.val) := by decide
    exact Char.ext ((UInt32.add_left_inj _).mp (hval.trans hshift))
  · exact .inr h

/-- The characters of a duration are not those of TO. -/
theorem duration?_chars {text : String} {duration : ℕ} (h : duration? text = some duration) :
  ∀ c ∈ text.toList, c.toUpper ≠ 'O'
  := by
  obtain ⟨digits, space, unit, factor, htext, -, hdigits, hspace, hunit, -⟩ := duration?_eq_some h
  intro c hc hupper
  have hletter : c.isDigit = false ∧ isWhiteSpace c = false := by
    obtain rfl | rfl := eq_of_toUpper_eq hupper
    · decide
    · decide
  have hunits : ∀ unit ∈ durationUnits, unit.1.toList.all (fun c => c.toUpper ≠ 'O') = true := by
    decide
  rw [htext] at hc
  obtain hc | hc := List.mem_append.mp hc
  · obtain hc | hc := List.mem_append.mp hc
    · rw [List.all_eq_true.mp hdigits c hc] at hletter
      cases hletter.1
    · rw [List.all_eq_true.mp hspace c hc] at hletter
      cases hletter.2
  · exact of_decide_eq_true (List.all_eq_true.mp (hunits _ hunit) c hc) hupper

/-- A value that stands for a timeout is cut where it is written. -/
theorem meaning_splits {value : String} {timeout : ℕ} (h : meaning value = some timeout)
    (assignment : Assignment) :
  assignment.Splits value
  := by
  have hchars : ∀ c ∈ value.toList, c.toUpper ≠ 'O' := by
    rw [meaning] at h
    split at h
    case isTrue hdefault =>
      intro c hc
      have hmem : c.toUpper ∈ (asciiUpper value).toList := by
        rw [toList_asciiUpper]
        exact List.mem_map_of_mem hc
      rw [hdefault] at hmem
      intro hupper
      rw [hupper] at hmem
      revert hmem
      decide
    case isFalse =>
      cases hduration : duration? value with
      | some duration => exact duration?_chars hduration
      | none =>
          rw [hduration, Option.orElse] at h
          obtain ⟨inner, hinner, h⟩ := Option.bind_eq_some_iff.mp h
          intro c hc hupper
          have hwhite : c ≠ '\'' ∧ isWhiteSpace c = false := by
            obtain rfl | rfl := eq_of_toUpper_eq hupper
            · decide
            · decide
          rw [literal?_eq_some hinner, List.mem_cons, List.mem_append, List.mem_singleton] at hc
          obtain hc | hc | hc := hc
          · exact hwhite.1 hc
          · exact duration?_chars h c (mem_trimWhiteSpace hwhite.2 (mem_of_mem_double hwhite.1 hc))
              hupper
          · exact hwhite.1 hc
  cases assignment with
  | word before after => exact trivial
  | equals before after =>
      apply splitAtUpper_eq_none (d := 'O') (by decide)
      intro c hc
      obtain hc | hc := List.mem_append.mp hc
      · rw [(List.mem_replicate.mp hc).2]
        decide
      · exact hchars c hc

/-- A value that is cut where it is written is kept. -/
theorem executeSet_setText (client : Metadata) (scope : Scope) {assignment : Assignment}
    {value : String} (hbare : Bare value) (hsplits : assignment.Splits value) :
  executeSet client (setText scope "statement_timeout" assignment value)
    = .ok (match normalizePostgresSettingValue value with
      | some value => client.insert (postgresSettingMetadataKey "statement_timeout") value
      | none => client.erase (postgresSettingMetadataKey "statement_timeout"))
  := by
  rw [executeSet, parsePostgresSetStatement_setText (.inr rfl) hbare hsplits]
  cases normalizePostgresSettingValue value with
  | some value => rfl
  | none => rfl

/-- A value with a TO between blanks after an equals sign is refused. -/
theorem executeSet_not_splits (client : Metadata) (scope : Scope) {assignment : Assignment}
    {value : String} (hbare : Bare value) (hsplits : ¬ assignment.Splits value) :
  ∃ message, executeSet client (setText scope "statement_timeout" assignment value)
    = .error message
  := by
  obtain ⟨message, hmessage⟩ :=
    parsePostgresSetStatement_not_splits (.inr rfl) hbare hsplits
  use message
  rw [executeSet, hmessage]
  rfl

/-- The timeout after a value was kept: it is read from the value, and the value is shown. -/
theorem kept_value (client : Metadata) (value : String) :
  statementTimeout (client.insert (postgresSettingMetadataKey "statement_timeout") value)
      = parseTimeoutToMs value
    ∧ effectivePostgresSetting
        (client.insert (postgresSettingMetadataKey "statement_timeout") value) "statement_timeout"
      = .ok value
  := by
  constructor
  · rw [statementTimeout, postgresSessionFromClient]
    dsimp only
    rw [KeyMap.get_insert, if_pos rfl]
    rfl
  · rw [effectivePostgresSetting, get_effective, KeyMap.get_insert, if_pos rfl, Option.some_or]

/-- The timeout after the value was dropped. -/
theorem dropped_value (client : Metadata) :
  statementTimeout (client.erase (postgresSettingMetadataKey "statement_timeout")) = 0
    ∧ effectivePostgresSetting
        (client.erase (postgresSettingMetadataKey "statement_timeout")) "statement_timeout"
      = .ok "0"
  := by
  have hdefault : defaultPostgresShowSettings["statement_timeout"]? = some "0" := by
    decide
  constructor
  · rw [statementTimeout, postgresSessionFromClient]
    dsimp only
    rw [KeyMap.get_erase, if_pos rfl]
    decide
  · rw [effectivePostgresSetting, get_effective, KeyMap.get_erase, if_pos rfl,
      if_neg (by decide), Option.none_or, Option.none_or, hdefault]

/-- A SET statement for the timeout takes effect exactly when its value is a duration without
quotes, or stands for no timeout, or is refused because of a TO in it. -/
theorem setTimeout_takesEffect_iff (client : Metadata) (scope : Scope) (assignment : Assignment)
    {value : String} (hbare : Bare value) :
  TakesEffect client (setText scope "statement_timeout" assignment value) (meaning value)
    ↔ TakesText assignment value
  := by
  rw [TakesText]
  by_cases hsplits : assignment.Splits value
  · have hexecute := executeSet_setText client scope hbare hsplits
    rw [normalizePostgresSettingValue, hbare.trimWhiteSpace] at hexecute
    by_cases hdefault : asciiUpper value = "DEFAULT"
    · rw [if_pos hdefault] at hexecute
      have hmeaning : meaning value = some 0 := by rw [meaning, if_pos hdefault]
      have hzero : meaning "0" = some 0 := by decide
      obtain ⟨htimeout, hshown⟩ := dropped_value client
      rw [takesEffect_ok hexecute, htimeout, hmeaning]
      exact ⟨fun _ => .inr (.inl rfl), fun _ => ⟨rfl, "0", hshown, hzero⟩⟩
    · rw [if_neg hdefault] at hexecute
      obtain ⟨htimeout, hshown⟩ := kept_value client value
      rw [takesEffect_ok hexecute, htimeout]
      constructor
      · rintro ⟨hmeaning, -⟩
        cases hduration : duration? value with
        | some duration => exact .inl rfl
        | none =>
            right
            left
            rw [hmeaning]
            rw [meaning, if_neg hdefault, hduration, Option.orElse] at hmeaning
            obtain ⟨inner, hinner, -⟩ := Option.bind_eq_some_iff.mp hmeaning
            rw [parseTimeoutToMs_literal hbare hinner]
      · intro h
        have hmeaning : meaning value = some (parseTimeoutToMs value) := by
          cases hduration : duration? value with
          | some duration =>
              rw [meaning, if_neg hdefault, hduration, parseTimeoutToMs_duration hbare hduration,
                Option.orElse]
          | none =>
              obtain hsome | hzero | ⟨-, hnot⟩ := h
              · rw [hduration] at hsome
                cases hsome
              · rw [hzero]
                rw [meaning, if_neg hdefault, hduration, Option.orElse] at hzero
                obtain ⟨inner, hinner, -⟩ := Option.bind_eq_some_iff.mp hzero
                rw [parseTimeoutToMs_literal hbare hinner]
              · exact absurd hsplits hnot
        exact ⟨hmeaning, value, hshown, hmeaning⟩
  · obtain ⟨message, hmessage⟩ := executeSet_not_splits client scope hbare hsplits
    have hmeaning : meaning value = none := by
      cases h : meaning value with
      | none => rfl
      | some timeout => exact absurd (meaning_splits h assignment) hsplits
    rw [takesEffect_error hmessage]
    exact ⟨fun h => .inr (.inr ⟨h, hsplits⟩), fun _ => hmeaning⟩

theorem bare_minutes : Bare "5 min"
  := by
  constructor
  · decide
  · rintro c ⟨⟩
    decide
  · rintro c ⟨⟩
    decide

theorem setTimeout_takesEffect_minutes :
  TakesEffect ∅ (setText .session "statement_timeout" (.equals 1 1) "5 min") (meaning "5 min")
  := (setTimeout_takesEffect_iff ∅ .session (.equals 1 1) bare_minutes).mpr (by decide)

/-- A value that is kept and read as another timeout than it stands for takes no effect. -/
theorem not_takesEffect {client : Metadata} {scope : Scope} {assignment : Assignment}
    {value : String} (hbare : Bare value) (hsplits : assignment.Splits value)
    (hdefault : asciiUpper value ≠ "DEFAULT")
    (hmeaning : meaning value ≠ some (parseTimeoutToMs value)) :
  ¬ TakesEffect client (setText scope "statement_timeout" assignment value) (meaning value)
  := by
  have hexecute := executeSet_setText client scope hbare hsplits
  rw [normalizePostgresSettingValue, hbare.trimWhiteSpace, if_neg hdefault] at hexecute
  rw [takesEffect_ok hexecute, (kept_value client value).1]
  exact fun h => hmeaning h.1

/-- A timeout between quotes is no timeout, and neither is a text that stands for none. -/
theorem setTimeout_unread :
  ¬ TakesEffect ∅ "SET statement_timeout = '5s'" (meaning "'5s'")
    ∧ ¬ TakesEffect ∅ "SET statement_timeout TO soon" (meaning "soon")
  := by
  have hquoted : "SET statement_timeout = '5s'"
      = setText .none "statement_timeout" (.equals 1 1) "'5s'" := by decide
  have hsoon : "SET statement_timeout TO soon"
      = setText .none "statement_timeout" (.word 0 0) "soon" := by decide
  rw [hquoted, hsoon]
  constructor
  · apply not_takesEffect _ (by decide) (by decide) (by decide)
    exact ⟨by decide, by rintro c ⟨⟩; decide, by rintro c ⟨⟩; decide⟩
  · apply not_takesEffect _ (by decide) (by decide) (by decide)
    exact ⟨by decide, by rintro c ⟨⟩; decide, by rintro c ⟨⟩; decide⟩

end Postgres
