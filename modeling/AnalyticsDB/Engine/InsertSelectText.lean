import AnalyticsDB.Engine.GenerateSeries
import AnalyticsDB.Lib.Regex
import Mathlib.Order.Lattice.Nat

/-!
# Recognising the INSERT of a query

Before any parser sees a text, a regular expression decides whether it is the INSERT of a query,
and which table, columns and query it has.  The expression is not anchored and knows neither
literals nor comments nor quotes: it takes the leftmost place in the text of the form it looks for.
So a statement is recognised as it is exactly when it stands in the text as the leftmost place of
this form.
-/

namespace InsertSelectText

open GenerateSeries Regex

/-! ### The expression -/

/-- A letter of the expression in either case; the long s is an S, too. -/
def letter (w c : Char) : Bool := c == w || c == w.toLower || (w == 'S' && c == 'ſ')

def keyword (text : String) : List (Char → Bool) := text.toList.map letter

def isNameChar (c : Char) : Bool := !isWhiteSpace c && c != '(' && c != ')'

/-- `\([^\)]+\)` -/
def listPattern : Regex Char :=
  .seq (.one (· == '(')) (.seq (.oneOrMore (· != ')')) (.one (· == ')')))

/-- `SELECT\s+.*` -/
def queryPattern : Regex Char :=
  .word (keyword "SELECT") (.seq (.oneOrMore isWhiteSpace) (.many (fun _ => true)))

/-- `\s*(\([^\)]+\))?\s*(SELECT\s+.*)` -/
def tailPattern : Regex Char :=
  .seq (.many isWhiteSpace) (.seq (.optional (.group listPattern))
    (.seq (.many isWhiteSpace) (.group queryPattern)))

/-- `(?is)INSERT\s+INTO\s+([^\s\(\)]+)\s*(\([^\)]+\))?\s*(SELECT\s+.*)` -/
def pattern : Regex Char :=
  .word (keyword "INSERT") (.seq (.oneOrMore isWhiteSpace)
    (.word (keyword "INTO") (.seq (.oneOrMore isWhiteSpace)
      (.seq (.group (.oneOrMore isNameChar)) tailPattern))))

/-- The columns of a list in parentheses. -/
def listColumns (list : List Char) : List String :=
  (((list.dropWhile (· == '(')).rdropWhile (· == ')')).splitOn ',').map
    (fun column => trimWhiteSpace (String.ofList column))

def parseInsertSelectStatement (sql : String) : Option InsertSelectStatement :=
  let trimmed := trimmedStatement sql
  if "INSERT INTO ".toList.isPrefixOf (asciiUpper trimmed).toList then
    match pattern.captures trimmed.toList with
    | some [name, columns, query] =>
      some
        { database := none
          schema := none
          name := (name.map String.ofList).getD ""
          columns := columns.map listColumns
          querySql := (query.map String.ofList).getD "" }
    | _ => none
  else none

example : parseInsertSelectStatement "insert into t(a) select 1"
    = some ⟨none, none, "t", some ["a"], "select 1"⟩ := by decide

/-! ### Where it matches -/

/-- A text begins with a word, in either case. -/
def Spells (word : String) (text : List Char) : Prop :=
  List.Forall₂ (fun p c => p c = true) (keyword word) text

/-- A text begins with SELECT and a blank. -/
def StartsSelect (text : List Char) : Prop :=
  ∃ written c rest, text = written ++ c :: rest ∧ Spells "SELECT" written ∧ isWhiteSpace c = true

/-- What stands after a name: a list of columns, or none, and a query. -/
inductive Tail : List Char → Option (List Char) → List Char → Prop where
  | plain (blanks query : List Char) (hblanks : ∀ c ∈ blanks, isWhiteSpace c = true)
    (hquery : StartsSelect query) :
    Tail (blanks ++ query) none query
  | listed (blanks inner blanks' query : List Char) (hblanks : ∀ c ∈ blanks, isWhiteSpace c = true)
    (hinner : inner ≠ []) (hclose : ')' ∉ inner)
    (hblanks' : ∀ c ∈ blanks', isWhiteSpace c = true) (hquery : StartsSelect query) :
    Tail (blanks ++ '(' :: (inner ++ ')' :: (blanks' ++ query))) (some ('(' :: (inner ++ [')']))) query

/-- An INSERT of the form that is looked for stands at the beginning of a text. -/
def Place (text name : List Char) (list : Option (List Char)) (query : List Char) : Prop :=
  ∃ insert b blanks into b' blanks' rest,
    text = insert ++ b :: (blanks ++ (into ++ b' :: (blanks' ++ (name ++ rest))))
      ∧ Spells "INSERT" insert ∧ isWhiteSpace b = true ∧ (∀ c ∈ blanks, isWhiteSpace c = true)
      ∧ Spells "INTO" into ∧ isWhiteSpace b' = true ∧ (∀ c ∈ blanks', isWhiteSpace c = true)
      ∧ name ≠ [] ∧ (∀ c ∈ name, isNameChar c = true) ∧ Tail rest list query

/-- The leftmost such place in a text, with the longest name there. -/
def Found (text name : List Char) (list : Option (List Char)) (query : List Char) : Prop :=
  ∃ before here, text = before ++ here ∧ Place here name list query
    ∧ (∀ name' list' query', Place here name' list' query' → name'.length ≤ name.length)
    ∧ ∀ earlier there, text = earlier ++ there → earlier.length < before.length →
      ∀ name' list' query', ¬ Place there name' list' query'

theorem StartsSelect.head {text : List Char} (h : StartsSelect text) :
  ∃ c rest, text = c :: rest ∧ isWhiteSpace c = false ∧ c ≠ '('
  := by
  obtain ⟨written, b, rest, rfl, hwritten, -⟩ := h
  cases hwritten with
  | @cons _ c _ written hc _ =>
      refine ⟨c, written ++ b :: rest, rfl, ?_⟩
      simp only [letter, Bool.or_eq_true, beq_iff_eq, Bool.and_eq_true] at hc
      obtain (rfl | rfl) | ⟨-, rfl⟩ := hc
      · decide
      · decide
      · decide

section

variable {β : Type} {f : Captures Char → β} {b : β}

/-- A query takes all that is left. -/
theorem first_query {text : List Char} :
  (Regex.group queryPattern).first text (fun captures _ => some (f captures)) = some b
    ↔ StartsSelect text ∧ f [some text] = b
  := by
  have hall : ∀ (text rest : List Char),
      firstMany isWhiteSpace (fun rest => firstMany (fun _ => true) (fun rest =>
        some (f [some (text.take (text.length - rest.length))])) rest) rest = some (f [some text]) := by
    intro text rest
    have hmany : ∀ rest : List Char, firstMany (fun _ => true) (fun rest =>
        some (f [some (text.take (text.length - rest.length))])) rest = some (f [some text]) := by
      intro rest
      have hnil : rest.dropWhile (fun _ => true) = [] := List.dropWhile_eq_nil_iff.mpr (by simp)
      rw [firstMany_eq (by simp), hnil]
      simp
    rw [firstMany_eq (by simp [hmany]), hmany]
  change queryPattern.first text (fun captures rest =>
    some (f (some (text.take (text.length - rest.length)) :: captures))) = some b ↔ _
  unfold queryPattern
  rw [first_word]
  constructor
  · rintro ⟨written, rest, heq, hwritten, h⟩
    cases rest with
    | nil => cases h
    | cons c rest =>
        change (if isWhiteSpace c = true then firstMany isWhiteSpace (fun rest =>
          firstMany (fun _ => true) (fun rest =>
            some (f [some (text.take (text.length - rest.length))])) rest) rest else none)
          = some b at h
        split at h
        · rename_i hc
          rw [hall] at h
          exact ⟨⟨written, c, rest, heq, hwritten, hc⟩, Option.some.inj h⟩
        · cases h
  · rintro ⟨⟨written, c, rest, heq, hwritten, hc⟩, rfl⟩
    refine ⟨written, c :: rest, heq, hwritten, ?_⟩
    change (if isWhiteSpace c = true then firstMany isWhiteSpace (fun rest =>
      firstMany (fun _ => true) (fun rest =>
        some (f [some (text.take (text.length - rest.length))])) rest) rest else none) = _
    rw [if_pos hc, hall]

/-- A list in parentheses goes to the first closing one. -/
theorem first_list {text : List Char} {accept : Captures Char → List Char → Option β} :
  (Regex.group listPattern).first text accept = some b ↔ ∃ inner rest,
    text = '(' :: (inner ++ ')' :: rest) ∧ inner ≠ [] ∧ ')' ∉ inner
      ∧ accept [some ('(' :: (inner ++ [')']))] rest = some b
  := by
  cases text with
  | nil =>
      constructor
      · intro h
        cases h
      · rintro ⟨inner, rest, heq, -⟩
        cases heq
  | cons c text =>
      have hclose : ∀ (c : Char) (rest : List Char) (accept : Captures Char → List Char → Option β),
          (c != ')') = true → (Regex.one (· == ')')).first (c :: rest) accept = none := by
        intro c rest accept hc
        have hc' : (c == ')') = false := by simpa using hc
        change (if (c == ')') = true then accept [] rest else none) = none
        rw [hc']
        rfl
      have htake : ∀ inner rest : List Char, ('(' :: (inner ++ ')' :: rest)).take
          (('(' :: (inner ++ ')' :: rest)).length - rest.length) = '(' :: (inner ++ [')']) := by
        intro inner rest
        have heq : '(' :: (inner ++ ')' :: rest) = ('(' :: (inner ++ [')'])) ++ rest := by simp
        rw [heq, List.length_append, Nat.add_sub_cancel, List.take_left']
        rfl
      change (if (c == '(') = true then
        (Regex.seq (.oneOrMore (· != ')')) (.one (· == ')'))).first text (fun captures rest =>
          accept (some ((c :: text).take ((c :: text).length - rest.length)) :: captures) rest)
        else none) = some b ↔ _
      constructor
      · intro h
        split at h
        · rename_i hc
          obtain rfl : c = '(' := by simpa using hc
          obtain ⟨d, taken, rest, rfl, hd, htaken, h⟩ :=
            (first_oneOrMore fun c rest hc => hclose c rest _ hc).mp h
          cases rest with
          | nil => cases h
          | cons e rest =>
              change (if (e == ')') = true then _ else none) = some b at h
              split at h
              · rename_i he
                obtain rfl : e = ')' := by simpa using he
                refine ⟨d :: taken, rest, rfl, List.cons_ne_nil d taken, ?_, ?_⟩
                · intro hmem
                  obtain rfl | hmem := List.mem_cons.mp hmem
                  · cases hd
                  · cases htaken ')' hmem
                · rw [← List.cons_append, htake] at h
                  exact h
              · cases h
        · cases h
      · rintro ⟨inner, rest, heq, hinner, hmem, h⟩
        obtain ⟨rfl, htext⟩ := List.cons.inj heq
        cases inner with
        | nil => exact absurd rfl hinner
        | cons d inner =>
            have hne : ∀ e ∈ d :: inner, (e != ')') = true := by
              intro e he
              rw [bne_iff_ne]
              rintro rfl
              exact hmem he
            rw [if_pos (by rfl), first_oneOrMore fun c rest hc => hclose c rest _ hc]
            refine ⟨d, inner, ')' :: rest, htext, hne d List.mem_cons_self,
              fun e he => hne e (List.mem_cons_of_mem d he), ?_⟩
            rw [htext]
            change accept [some (('(' :: ((d :: inner) ++ ')' :: rest)).take
              (('(' :: ((d :: inner) ++ ')' :: rest)).length - rest.length))] rest = some b
            rw [htake]
            exact h

/-- The query after some blanks. -/
theorem first_blanks_query {text : List Char} :
  (Regex.seq (.many isWhiteSpace) (.group queryPattern)).first text
      (fun captures _ => some (f captures)) = some b
    ↔ StartsSelect (text.dropWhile isWhiteSpace) ∧ f [some (text.dropWhile isWhiteSpace)] = b
  := by
  rw [← first_query]
  change firstMany isWhiteSpace (fun rest => (Regex.group queryPattern).first rest
    (fun captures _ => some (f captures))) text = some b ↔ _
  rw [firstMany_eq]
  intro c rest hc _
  rw [Option.eq_none_iff_forall_ne_some]
  intro b' h
  obtain ⟨d, rest', heq, hd, -⟩ := (first_query.mp h).1.head
  obtain ⟨rfl, -⟩ := List.cons.inj heq
  rw [hc] at hd
  cases hd

/-- A list is taken if there is one. -/
theorem first_optional_list {text : List Char} :
  (Regex.seq (.optional (.group listPattern)) (.seq (.many isWhiteSpace) (.group queryPattern))).first
      text (fun captures _ => some (f captures)) = some b
    ↔ (∃ inner rest, text = '(' :: (inner ++ ')' :: rest) ∧ inner ≠ [] ∧ ')' ∉ inner
        ∧ StartsSelect (rest.dropWhile isWhiteSpace)
        ∧ f [some ('(' :: (inner ++ [')'])), some (rest.dropWhile isWhiteSpace)] = b)
      ∨ StartsSelect (text.dropWhile isWhiteSpace)
        ∧ f [none, some (text.dropWhile isWhiteSpace)] = b
  := by
  change ((Regex.group listPattern).first text (fun captures rest =>
      (Regex.seq (.many isWhiteSpace) (.group queryPattern)).first rest
        (fun captures' _ => some (f (captures ++ captures'))))).or
    ((Regex.seq (.many isWhiteSpace) (.group queryPattern)).first text
      (fun captures' _ => some (f (none :: captures')))) = some b ↔ _
  rw [Option.or_eq_some_iff]
  constructor
  · rintro (h | ⟨-, h⟩)
    · obtain ⟨inner, rest, heq, hinner, hclose, h⟩ := first_list.mp h
      exact .inl ⟨inner, rest, heq, hinner, hclose, first_blanks_query.mp h⟩
    · exact .inr (first_blanks_query.mp h)
  · rintro (⟨inner, rest, heq, hinner, hclose, h⟩ | h)
    · exact .inl (first_list.mpr ⟨inner, rest, heq, hinner, hclose, first_blanks_query.mpr h⟩)
    · refine .inr ⟨?_, first_blanks_query.mpr h⟩
      -- what begins with a parenthesis does not begin with SELECT
      rw [Option.eq_none_iff_forall_ne_some]
      intro b' hlist
      obtain ⟨inner, rest, rfl, -⟩ := first_list.mp hlist
      obtain ⟨c, rest', heq, -, hc⟩ := h.1.head
      have hblank : isWhiteSpace '(' = false := by decide
      rw [List.dropWhile_cons_of_neg (by simp [hblank])] at heq
      exact hc (List.cons.inj heq).1.symm

theorem first_tail {text : List Char} :
  tailPattern.first text (fun captures _ => some (f captures)) = some b
    ↔ ∃ list query, Tail text list query ∧ f [list, some query] = b
  := by
  have hdrop : tailPattern.first text (fun captures _ => some (f captures))
      = (Regex.seq (.optional (.group listPattern))
          (.seq (.many isWhiteSpace) (.group queryPattern))).first (text.dropWhile isWhiteSpace)
        (fun captures _ => some (f captures)) := by
    apply firstMany_eq
    intro c rest hc hnone
    rw [Option.eq_none_iff_forall_ne_some]
    intro b' h
    obtain ⟨inner, rest', heq, -⟩ | hplain := first_optional_list.mp h
    · obtain ⟨rfl, -⟩ := List.cons.inj heq
      cases hc
    · rw [List.dropWhile_cons_of_pos hc, ← List.dropWhile_idempotent] at hplain
      have hsome := first_optional_list.mpr (.inr hplain)
      exact absurd (hnone.symm.trans hsome) (Option.some_ne_none b').symm
  have hblanks : ∀ text : List Char, ∀ c ∈ text.takeWhile isWhiteSpace, isWhiteSpace c = true :=
    fun text c hc => List.mem_takeWhile_imp hc
  have hquery : ∀ (blanks query : List Char), (∀ c ∈ blanks, isWhiteSpace c = true) →
      StartsSelect query → (blanks ++ query).dropWhile isWhiteSpace = query := by
    intro blanks query hblanks hquery
    obtain ⟨c, rest, rfl, hc, -⟩ := hquery.head
    rw [List.dropWhile_append_of_pos hblanks, List.dropWhile_cons_of_neg (by simp [hc])]
  rw [hdrop, first_optional_list]
  constructor
  · rintro (⟨inner, rest, heq, hinner, hclose, hselect, h⟩ | ⟨hselect, h⟩)
    · have htail := Tail.listed (text.takeWhile isWhiteSpace) inner (rest.takeWhile isWhiteSpace)
        (rest.dropWhile isWhiteSpace) (hblanks text) hinner hclose (hblanks rest) hselect
      rw [List.takeWhile_append_dropWhile, ← heq, List.takeWhile_append_dropWhile] at htail
      exact ⟨_, _, htail, h⟩
    · rw [List.dropWhile_idempotent] at hselect h
      have htail := Tail.plain (text.takeWhile isWhiteSpace) (text.dropWhile isWhiteSpace)
        (hblanks text) hselect
      rw [List.takeWhile_append_dropWhile] at htail
      exact ⟨_, _, htail, h⟩
  · rintro ⟨list, query, htail, h⟩
    cases htail with
    | plain blanks query hblanks hselect =>
        right
        rw [List.dropWhile_idempotent, hquery blanks query hblanks hselect]
        exact ⟨hselect, h⟩
    | listed blanks inner blanks' query hblanks hinner hclose hblanks' hselect =>
        left
        refine ⟨inner, blanks' ++ query, ?_, hinner, hclose, ?_⟩
        · rw [List.dropWhile_append_of_pos hblanks, List.dropWhile_cons_of_neg (by decide)]
        · rw [hquery blanks' query hblanks' hselect]
          exact ⟨hselect, h⟩

end

/-- What stands after INSERT INTO. -/
def afterInto (text : List Char) : List Char :=
  ((((text.drop 6).dropWhile isWhiteSpace).drop 4).dropWhile isWhiteSpace)

theorem Spells.length {word : String} {text : List Char} (h : Spells word text) :
  text.length = word.toList.length
  := by
  rw [← h.length_eq, keyword, List.length_map]

theorem Spells.head {text : List Char} (h : Spells "INTO" text) :
  ∃ c rest, text = c :: rest ∧ isWhiteSpace c = false
  := by
  cases h with
  | @cons _ c _ rest hc _ =>
      refine ⟨c, rest, rfl, ?_⟩
      simp only [letter, Bool.or_eq_true, beq_iff_eq, Bool.and_eq_true] at hc
      obtain (rfl | rfl) | ⟨hs, -⟩ := hc
      · decide
      · decide
      · cases hs

theorem dropWhile_blanks {blanks rest : List Char} {c : Char}
    (hblanks : ∀ c ∈ blanks, isWhiteSpace c = true) (hc : isWhiteSpace c = false) :
  (blanks ++ c :: rest).dropWhile isWhiteSpace = c :: rest
  := by
  rw [List.dropWhile_append_of_pos hblanks, List.dropWhile_cons_of_neg (by simp [hc])]

theorem afterInto_eq {insert blanks into blanks' name rest : List Char} {b b' : Char}
    (hinsert : Spells "INSERT" insert) (hb : isWhiteSpace b = true)
    (hblanks : ∀ c ∈ blanks, isWhiteSpace c = true) (hinto : Spells "INTO" into)
    (hb' : isWhiteSpace b' = true) (hblanks' : ∀ c ∈ blanks', isWhiteSpace c = true)
    (hne : name ≠ []) (hname : ∀ c ∈ name, isNameChar c = true) :
  afterInto (insert ++ b :: (blanks ++ (into ++ b' :: (blanks' ++ (name ++ rest))))) = name ++ rest
  := by
  obtain ⟨c, into', rfl, hc⟩ := hinto.head
  obtain ⟨d, name', rfl⟩ := List.exists_cons_of_ne_nil hne
  have hd : isWhiteSpace d = false := by
    have hd := hname d List.mem_cons_self
    simp only [isNameChar, Bool.and_eq_true, Bool.not_eq_true'] at hd
    exact hd.1.1
  have hlength : insert.length = 6 := hinsert.length
  have hlength' : (c :: into').length = 4 := hinto.length
  unfold afterInto
  rw [List.drop_left' hlength, List.dropWhile_cons_of_pos hb, List.cons_append,
    dropWhile_blanks hblanks hc, ← List.cons_append, List.drop_left' hlength',
    List.dropWhile_cons_of_pos hb', List.cons_append, dropWhile_blanks hblanks' hd]

/-- The expression matches the beginning of a text with the longest name there. -/
theorem capturesAt_pattern {text : List Char} {caps : Captures Char} :
  pattern.capturesAt text = some caps ↔ ∃ name list query, Place text name list query
    ∧ (∀ name' list' query', Place text name' list' query' → name'.length ≤ name.length)
    ∧ [some name, list, some query] = caps
  := by
  have hinto : ∀ (accept : Captures Char → List Char → Option (Captures Char)) (r : Regex Char)
      (c : Char) (rest : List Char), isWhiteSpace c = true →
        (Regex.word (keyword "INTO") r).first (c :: rest) accept = none := by
    intro accept r c rest hc
    rw [Option.eq_none_iff_forall_ne_some]
    intro caps h
    obtain ⟨written, rest', heq, hwritten, -⟩ := first_word.mp h
    obtain ⟨d, written', rfl, hd⟩ := Spells.head hwritten
    obtain ⟨rfl, -⟩ := List.cons.inj heq
    rw [hc] at hd
    cases hd
  have hname : ∀ (accept : Captures Char → List Char → Option (Captures Char)) (r : Regex Char)
      (c : Char) (rest : List Char), isWhiteSpace c = true →
        (Regex.seq (.group (.oneOrMore isNameChar)) r).first (c :: rest) accept = none := by
    intro accept r c rest hc
    rw [Option.eq_none_iff_forall_ne_some]
    intro caps h
    obtain ⟨taken, rest', heq, hne, htaken, -⟩ := first_group_oneOrMore.mp h
    obtain ⟨d, taken', rfl⟩ := List.exists_cons_of_ne_nil hne
    obtain ⟨rfl, -⟩ := List.cons.inj heq
    have hc' := htaken c List.mem_cons_self
    simp [isNameChar, hc] at hc'
  unfold Regex.capturesAt pattern
  rw [first_word]
  constructor
  · rintro ⟨insert, rest, rfl, hinsert, h⟩
    obtain ⟨b, blanks, rest, rfl, hb, hblanks, h⟩ := (first_oneOrMore (hinto _ _)).mp h
    obtain ⟨into, rest, rfl, hinto, h⟩ := first_word.mp h
    obtain ⟨b', blanks', rest, rfl, hb', hblanks', h⟩ := (first_oneOrMore (hname _ _)).mp h
    obtain ⟨name, rest, rfl, hne, hname, h, hlongest⟩ := first_group_oneOrMore.mp h
    obtain ⟨list, query, htail, h⟩ := first_tail.mp h
    refine ⟨name, list, query, ⟨insert, b, blanks, into, b', blanks', rest, rfl, hinsert, hb,
      hblanks, hinto, hb', hblanks', hne, hname, htail⟩, ?_, h⟩
    rintro name' list' query' ⟨insert', c, _, into', c', _, rest', heq, hinsert', hc, hblanks₁,
      hinto', hc', hblanks₂, hne', hname', htail'⟩
    have hafter := congrArg afterInto heq
    rw [afterInto_eq hinsert hb hblanks hinto hb' hblanks' hne hname,
      afterInto_eq hinsert' hc hblanks₁ hinto' hc' hblanks₂ hne' hname'] at hafter
    by_contra hlonger
    obtain ⟨more, rfl, rfl⟩ | ⟨more, rfl, -⟩ := List.append_eq_append_iff.mp hafter
    · have hmore : more ≠ [] := by
        rintro rfl
        simp at hlonger
      have hnone := hlongest more rest' rfl hmore
        fun c hc => hname' c (List.mem_append_right name hc)
      rw [Option.eq_none_iff_forall_ne_some] at hnone
      exact hnone _ (first_tail.mpr ⟨list', query', htail', rfl⟩)
    · simp at hlonger
  · rintro ⟨name, list, query, ⟨insert, b, blanks, into, b', blanks', rest, rfl, hinsert, hb,
      hblanks, hinto', hb', hblanks', hne, hname', htail⟩, hlongest, h⟩
    refine ⟨insert, _, rfl, hinsert, (first_oneOrMore (hinto _ _)).mpr ⟨b, blanks, _, rfl, hb,
      hblanks, first_word.mpr ⟨into, _, rfl, hinto', (first_oneOrMore (hname _ _)).mpr ⟨b', blanks',
        _, rfl, hb', hblanks', first_group_oneOrMore.mpr ⟨name, rest, rfl, hne, hname',
          first_tail.mpr ⟨list, query, htail, h⟩, ?_⟩⟩⟩⟩⟩
    rintro more rest' rfl hmore hmore'
    rw [Option.eq_none_iff_forall_ne_some]
    intro caps' h'
    obtain ⟨list', query', htail', -⟩ := first_tail.mp h'
    have hle := hlongest (name ++ more) list' query' ⟨insert, b, blanks, into, b', blanks', rest',
      by simp, hinsert, hb, hblanks, hinto', hb', hblanks', by simp [hne],
      fun c hc => (List.mem_append.mp hc).elim (hname' c) (hmore' c), htail'⟩
    rw [List.length_append] at hle
    have hpos := List.length_pos_iff.mpr hmore
    omega

theorem Place.length_le {text name query : List Char} {list : Option (List Char)}
    (h : Place text name list query) :
  name.length ≤ text.length
  := by
  obtain ⟨insert, b, blanks, into, b', blanks', rest, rfl, -⟩ := h
  simp only [List.length_append, List.length_cons]
  omega

/-- The expression does not match the beginning of a text when no INSERT stands there. -/
theorem capturesAt_pattern_eq_none {text : List Char} :
  pattern.capturesAt text = none ↔ ∀ name list query, ¬ Place text name list query
  := by
  constructor
  · intro hnone name list query hplace
    -- of the names that stand there one is the longest
    have hnonempty : {n | ∃ name list query, Place text name list query
        ∧ name.length = n}.Nonempty := ⟨name.length, name, list, query, hplace, rfl⟩
    have hbounded : BddAbove {n | ∃ name list query, Place text name list query
        ∧ name.length = n} := by
      refine ⟨text.length, ?_⟩
      rintro n ⟨name, list, query, hplace, rfl⟩
      exact hplace.length_le
    obtain ⟨name', list', query', hplace', hlength⟩ :=
      Nat.sSup_mem hnonempty hbounded
    have hsome := capturesAt_pattern.mpr ⟨name', list', query', hplace', ?_, rfl⟩
    · rw [hnone] at hsome
      cases hsome
    · intro name'' list'' query'' hplace''
      rw [hlength]
      exact le_csSup hbounded ⟨name'', list'', query'', hplace'', rfl⟩
  · intro hnone
    rw [Option.eq_none_iff_forall_ne_some]
    intro caps h
    obtain ⟨name, list, query, hplace, -⟩ := capturesAt_pattern.mp h
    exact hnone name list query hplace

theorem captures_pattern {text : List Char} {caps : Captures Char} :
  pattern.captures text = some caps ↔ ∃ name list query, Found text name list query
    ∧ [some name, list, some query] = caps
  := by
  rw [captures_eq_some_iff]
  constructor
  · rintro ⟨before, here, rfl, hhere, hearlier⟩
    obtain ⟨name, list, query, hplace, hlongest, h⟩ := capturesAt_pattern.mp hhere
    refine ⟨name, list, query, ⟨before, here, rfl, hplace, hlongest, ?_⟩, h⟩
    intro earlier there heq hlength
    exact capturesAt_pattern_eq_none.mp (hearlier earlier there heq hlength)
  · rintro ⟨name, list, query, ⟨before, here, rfl, hplace, hlongest, hearlier⟩, h⟩
    refine ⟨before, here, rfl, capturesAt_pattern.mpr ⟨name, list, query, hplace, hlongest, h⟩, ?_⟩
    intro earlier there heq hlength
    exact capturesAt_pattern_eq_none.mpr (hearlier earlier there heq hlength)

/-- A text begins with INSERT INTO and a blank. -/
def Begins (sql : String) : Prop :=
  "INSERT INTO ".toList <+: (asciiUpper (trimmedStatement sql)).toList

/-- What is recognised in a text is what stands at the leftmost place. -/
theorem parse_eq_some_iff {sql : String} {statement : InsertSelectStatement} :
  parseInsertSelectStatement sql = some statement
    ↔ Begins sql ∧ ∃ name list query, Found (trimmedStatement sql).toList name list query
        ∧ ⟨none, none, String.ofList name, list.map listColumns, String.ofList query⟩ = statement
  := by
  unfold parseInsertSelectStatement Begins
  rw [← List.isPrefixOf_iff_prefix]
  dsimp only
  constructor
  · intro h
    split at h
    · rename_i hbegins
      refine ⟨hbegins, ?_⟩
      split at h
      · rename_i name columns query hcaptures
        obtain ⟨name', list, query', hfound, heq⟩ := captures_pattern.mp hcaptures
        cases heq
        exact ⟨name', columns, query', hfound, Option.some.inj h⟩
      · cases h
    · cases h
  · rintro ⟨hbegins, name, list, query, hfound, rfl⟩
    rw [if_pos hbegins, captures_pattern.mpr ⟨name, list, query, hfound, rfl⟩]
    rfl

/-- Nothing is recognised in a text without such a place. -/
theorem parse_eq_none_iff {sql : String} :
  parseInsertSelectStatement sql = none
    ↔ ¬ (Begins sql ∧ ∃ before here name list query,
      (trimmedStatement sql).toList = before ++ here ∧ Place here name list query)
  := by
  constructor
  · rintro hnone ⟨hbegins, before, here, name, list, query, heq, hplace⟩
    cases hcaptures : pattern.captures (trimmedStatement sql).toList with
    | none =>
        have hhere := captures_eq_none_iff.mp hcaptures before here heq
        exact capturesAt_pattern_eq_none.mp hhere name list query hplace
    | some caps =>
        obtain ⟨name', list', query', hfound, -⟩ := captures_pattern.mp hcaptures
        have hsome := parse_eq_some_iff.mpr ⟨hbegins, name', list', query', hfound, rfl⟩
        rw [hnone] at hsome
        cases hsome
  · intro h
    rw [Option.eq_none_iff_forall_ne_some]
    intro statement hsome
    obtain ⟨hbegins, name, list, query, ⟨before, here, heq, hplace, -⟩, -⟩ :=
      parse_eq_some_iff.mp hsome
    exact h ⟨hbegins, before, here, name, list, query, heq, hplace⟩

/-- A table written in the values of an INSERT. -/
def insertInValues : String := "INSERT INTO notes VALUES ('INSERT INTO t SELECT 1')"

/-- A statement is recognised when its table is written without blanks and parentheses, right after
INSERT INTO and before a blank or a list, and its query begins with SELECT. -/
theorem parse_of_tail {sql : String} {name rest query : List Char} {list : Option (List Char)}
    (hsql : (trimmedStatement sql).toList = "INSERT INTO ".toList ++ (name ++ rest)) (hne : name ≠ [])
    (hname : ∀ c ∈ name, isNameChar c = true) (hrest : ∀ c ∈ rest.head?, isNameChar c = false)
    (htail : Tail rest list query) :
  parseInsertSelectStatement sql
    = some ⟨none, none, String.ofList name, list.map listColumns, String.ofList query⟩
  := by
  have hinsert : Spells "INSERT" "INSERT".toList := by
    refine List.forall₂_map_left_iff.mpr (List.forall₂_same.mpr fun c _ => ?_)
    simp [letter]
  have hinto : Spells "INTO" "INTO".toList := by
    refine List.forall₂_map_left_iff.mpr (List.forall₂_same.mpr fun c _ => ?_)
    simp [letter]
  have hwords : "INSERT INTO ".toList = "INSERT".toList ++ ' ' :: ("INTO".toList ++ [' ']) := by
    decide
  have hwritten : (trimmedStatement sql).toList
      = "INSERT".toList ++ ' ' :: ([] ++ ("INTO".toList ++ ' ' :: ([] ++ (name ++ rest)))) := by
    rw [hsql, hwords]
    simp only [List.append_assoc, List.cons_append, List.nil_append]
  have hplace : Place (trimmedStatement sql).toList name list query :=
    ⟨"INSERT".toList, ' ', [], "INTO".toList, ' ', [], rest, hwritten, hinsert, by decide, by simp,
      hinto, by decide, by simp, hne, hname, htail⟩
  rw [parse_eq_some_iff]
  refine ⟨?_, name, list, query, ⟨[], (trimmedStatement sql).toList, (List.nil_append _).symm, hplace,
    ?_, by simp⟩, rfl⟩
  · have hupper : "INSERT INTO ".toList.map Char.toUpper = "INSERT INTO ".toList := by
      decide
    have hascii : (asciiUpper (trimmedStatement sql)).toList
        = (trimmedStatement sql).toList.map Char.toUpper := String.toList_ofList
    unfold Begins
    rw [hascii, hsql, List.map_append, hupper]
    exact List.prefix_append _ _
  · rintro name' list' query' ⟨insert', c, blanks, into', c', blanks', rest', heq, hinsert', hc,
      hblanks, hinto', hc', hblanks', hne', hname', htail'⟩
    have hafter := congrArg afterInto (hwritten.symm.trans heq)
    rw [afterInto_eq hinsert (by decide) (by simp) hinto (by decide) (by simp) hne hname,
      afterInto_eq hinsert' hc hblanks hinto' hc' hblanks' hne' hname'] at hafter
    by_contra hlonger
    obtain ⟨more, rfl, rfl⟩ | ⟨more, rfl, -⟩ := List.append_eq_append_iff.mp hafter
    · cases more with
      | nil => simp at hlonger
      | cons d more =>
          have hd := hname' d (by simp)
          rw [hrest d rfl] at hd
          cases hd
    · simp at hlonger

end InsertSelectText
