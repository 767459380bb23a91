import Mathlib.Data.List.DropRight
import Mathlib.Data.List.TakeWhile

/-!
# Texts

White space and texts without the white space around them; texts in upper and in lower case.
-/

/-- Whether a character is white space, as `char::is_whitespace` has it. -/
def isWhiteSpace (c : Char) : Bool :=
  let n := c.toNat
  (0x9 ≤ n && n ≤ 0xD) || n == 0x20 || n == 0x85 || n == 0xA0 || n == 0x1680
    || (0x2000 ≤ n && n ≤ 0x200A) || n == 0x2028 || n == 0x2029 || n == 0x202F || n == 0x205F
    || n == 0x3000

/-- A text without the white space around it. -/
def trimWhiteSpace (text : String) : String :=
  String.ofList (((text.toList.dropWhile isWhiteSpace).reverse.dropWhile isWhiteSpace).reverse)

example : trimWhiteSpace " a name\n" = "a name" := by decide

/-- What is checked character by character holds of every character. -/
theorem forall_mem_of_all {α : Type} {p : α → Prop} [DecidablePred p] {text : List α}
    (h : text.all (fun c => decide (p c)) = true) :
  ∀ c ∈ text, p c
  := by
  intro c hc
  exact of_decide_eq_true (List.all_eq_true.mp h c hc)

/-- A text that neither starts nor ends with white space. -/
theorem trimWhiteSpace_of_ends {text : String}
    (hhead : ∀ c, text.toList.head? = some c → isWhiteSpace c = false)
    (hlast : ∀ c, text.toList.getLast? = some c → isWhiteSpace c = false) :
  trimWhiteSpace text = text
  := by
  have hdrop : text.toList.dropWhile isWhiteSpace = text.toList := by
    cases htext : text.toList with
    | nil => rfl
    | cons c rest =>
        apply List.dropWhile_cons_of_neg
        simp [hhead c (by rw [htext]; rfl)]
  have hrdrop : text.toList.rdropWhile isWhiteSpace = text.toList := by
    rw [List.rdropWhile_eq_self_iff]
    intro hne
    simp [hlast _ (List.getLast?_eq_some_getLast hne)]
  rw [trimWhiteSpace, hdrop]
  exact (congrArg String.ofList hrdrop).trans (String.ofList_toList)

/-- White space at the end of a text does not count for its trimmed form. -/
theorem trimWhiteSpace_append {text space : List Char} (h : space.all isWhiteSpace = true) :
  trimWhiteSpace (String.ofList (text ++ space)) = trimWhiteSpace (String.ofList text)
  := by
  rw [List.all_eq_true] at h
  have hspace : ∀ xs : List Char, ((xs ++ space).reverse.dropWhile isWhiteSpace)
      = xs.reverse.dropWhile isWhiteSpace := by
    intro xs
    rw [List.reverse_append, List.dropWhile_append_of_pos]
    intro c hc
    exact h c (List.mem_reverse.mp hc)
  rw [trimWhiteSpace, trimWhiteSpace, String.toList_ofList, String.toList_ofList,
    List.dropWhile_append]
  split
  case isFalse => rw [hspace]
  case isTrue hempty =>
    rw [List.isEmpty_iff] at hempty
    rw [hempty, List.dropWhile_eq_nil_iff.mpr h]

/-- The upper case of a text; letters outside ASCII stay. -/
def asciiUpper (text : String) : String := String.ofList (text.toList.map Char.toUpper)

def asciiLower (text : String) : String := String.ofList (text.toList.map Char.toLower)
