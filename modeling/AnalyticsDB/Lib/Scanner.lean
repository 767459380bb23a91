import Mathlib.Data.List.Basic
import Mathlib.Data.List.Chain

/-!
# Scanners

A scanner cuts a text into tokens.  It reads the text from left to right and is in some mode:
the mode and the next character say whether the character belongs to the token that is being
read, and with which mode to go on, or whether it starts a new one.  So two texts put one after
the other are scanned as the tokens of the first followed by those of the second exactly when
the first character of the second does not continue the last token of the first.
-/

/-- A scanner of texts over `α` with modes `μ`: the mode in which a character starts a token,
and the mode, if any, in which a character continues one. -/
structure Scanner (α μ : Type) where
  start : α → μ
  next : μ → α → Option μ

/-- A token: its text, and the mode it ends in. -/
structure Token (α μ : Type) where
  mode : μ
  text : List α
  deriving DecidableEq, Repr

namespace Scanner

variable {α μ : Type} (s : Scanner α μ)

/-- The tokens of a text that comes after what was read of a token. -/
def tokensFrom : μ → List α → List α → List (Token α μ)
  | m, read, [] => [⟨m, read⟩]
  | m, read, c :: rest =>
    match s.next m c with
    | some m' => tokensFrom m' (read ++ [c]) rest
    | none => ⟨m, read⟩ :: tokensFrom (s.start c) [c] rest

/-- The tokens of a text. -/
def tokens : List α → List (Token α μ)
  | [] => []
  | c :: rest => s.tokensFrom (s.start c) [c] rest

/-- The mode after one more character. -/
def advance (m : μ) (c : α) : μ := (s.next m c).getD (s.start c)

/-- A text does not continue the last token of the one before it. -/
def Breaks : List α → List α → Prop
  | c :: rest, d :: _ => s.next (rest.foldl s.advance (s.start c)) d = none
  | _, _ => True

instance [DecidableEq μ] : ∀ xs ys, Decidable (s.Breaks xs ys)
  | _ :: _, _ :: _ => inferInstanceAs (Decidable (_ = _))
  | [], _ => .isTrue trivial
  | _ :: _, [] => .isTrue trivial

variable {s}

theorem tokensFrom_some {m m' : μ} {read rest : List α} {c : α} (h : s.next m c = some m') :
  s.tokensFrom m read (c :: rest) = s.tokensFrom m' (read ++ [c]) rest
  := by
  rw [tokensFrom, h]

theorem tokensFrom_none {m : μ} {read rest : List α} {c : α} (h : s.next m c = none) :
  s.tokensFrom m read (c :: rest) = ⟨m, read⟩ :: s.tokensFrom (s.start c) [c] rest
  := by
  rw [tokensFrom, h]

/-- The first token begins with what was read of it. -/
theorem tokensFrom_head (m : μ) (read text : List α) :
  ∃ token rest, s.tokensFrom m read text = token :: rest ∧ read <+: token.text
  := by
  induction text generalizing m read with
  | nil => exact ⟨_, _, rfl, List.prefix_rfl⟩
  | cons c text ih =>
      cases hnext : s.next m c with
      | none => exact ⟨_, _, tokensFrom_none hnext, List.prefix_rfl⟩
      | some m' =>
          obtain ⟨token, rest, htokens, hread⟩ := ih m' (read ++ [c])
          rw [tokensFrom_some hnext]
          exact ⟨token, rest, htokens, (List.prefix_append read [c]).trans hread⟩

/-- No character is lost. -/
theorem flatten_tokensFrom (m : μ) (read text : List α) :
  ((s.tokensFrom m read text).map (·.text)).flatten = read ++ text
  := by
  induction text generalizing m read with
  | nil => simp [tokensFrom]
  | cons c text ih =>
      cases hnext : s.next m c with
      | none => simp [tokensFrom_none hnext, ih]
      | some m' => simp [tokensFrom_some hnext, ih]

theorem flatten_tokens (text : List α) :
  ((s.tokens text).map (·.text)).flatten = text
  := by
  cases text with
  | nil => rfl
  | cons c rest => exact flatten_tokensFrom _ _ _

/-- No token is empty. -/
theorem text_ne_nil_of_mem_tokensFrom {m : μ} {read text : List α} {token : Token α μ}
    (hread : read ≠ []) (h : token ∈ s.tokensFrom m read text) :
  token.text ≠ []
  := by
  induction text generalizing m read with
  | nil =>
      obtain rfl := List.mem_singleton.mp h
      exact hread
  | cons c text ih =>
      cases hnext : s.next m c with
      | none =>
          rw [tokensFrom_none hnext] at h
          obtain rfl | h := List.mem_cons.mp h
          · exact hread
          · exact ih (by simp) h
      | some m' =>
          rw [tokensFrom_some hnext] at h
          exact ih (by simp) h

theorem text_ne_nil_of_mem_tokens {text : List α} {token : Token α μ}
    (h : token ∈ s.tokens text) :
  token.text ≠ []
  := by
  cases text with
  | nil => cases h
  | cons c rest => exact text_ne_nil_of_mem_tokensFrom (by simp) h

/-- A token that is scanned on its own is that token, when what was read of it is. -/
theorem tokens_text_of_mem_tokensFrom {m : μ} {read text : List α} {token : Token α μ}
    (hread : ∀ rest, s.tokens (read ++ rest) = s.tokensFrom m read rest)
    (h : token ∈ s.tokensFrom m read text) :
  s.tokens token.text = [token]
  := by
  induction text generalizing m read with
  | nil =>
      obtain rfl := List.mem_singleton.mp h
      rw [← List.append_nil read, hread]
      simp [tokensFrom]
  | cons c text ih =>
      cases hnext : s.next m c with
      | none =>
          rw [tokensFrom_none hnext] at h
          obtain rfl | h := List.mem_cons.mp h
          · rw [← List.append_nil read, hread]
            simp [tokensFrom]
          · exact ih (fun rest => rfl) h
      | some m' =>
          rw [tokensFrom_some hnext] at h
          apply ih _ h
          intro rest
          rw [List.append_assoc, List.singleton_append, hread, tokensFrom_some hnext]

/-- The text of a token has that token only. -/
theorem tokens_text_of_mem {text : List α} {token : Token α μ} (h : token ∈ s.tokens text) :
  s.tokens token.text = [token]
  := by
  cases text with
  | nil => cases h
  | cons c rest => exact tokens_text_of_mem_tokensFrom (fun rest => rfl) h

/-- A text that does not continue the last token of another is scanned on its own. -/
theorem tokensFrom_append {m : μ} {read text rest : List α} {d : α}
    (h : s.next (text.foldl s.advance m) d = none) :
  s.tokensFrom m read (text ++ d :: rest)
    = s.tokensFrom m read text ++ s.tokens (d :: rest)
  := by
  induction text generalizing m read with
  | nil => exact tokensFrom_none h
  | cons c text ih =>
      rw [List.foldl_cons, advance] at h
      cases hnext : s.next m c with
      | none =>
          rw [hnext, Option.getD_none] at h
          rw [List.cons_append, tokensFrom_none hnext, tokensFrom_none hnext, ih h]
          rfl
      | some m' =>
          rw [hnext] at h
          rw [List.cons_append, tokensFrom_some hnext, tokensFrom_some hnext]
          exact ih h

/-- A text that continues the last token of another makes it longer. -/
theorem tokensFrom_append_ne {m m' : μ} {read text rest : List α} {d : α}
    (h : s.next (text.foldl s.advance m) d = some m') (others : List (Token α μ)) :
  s.tokensFrom m read (text ++ d :: rest) ≠ s.tokensFrom m read text ++ others
  := by
  induction text generalizing m read with
  | nil =>
      intro heq
      obtain ⟨token, tokens, htokens, hread⟩ := tokensFrom_head (s := s) m' (read ++ [d]) rest
      rw [List.nil_append, tokensFrom_some (show s.next m d = some m' from h), htokens] at heq
      obtain rfl := (List.cons.inj heq).1
      have hlength := hread.length_le
      rw [List.length_append, List.length_singleton] at hlength
      exact Nat.not_succ_le_self _ hlength
  | cons c text ih =>
      rw [List.foldl_cons, advance] at h
      cases hnext : s.next m c with
      | none =>
          rw [hnext] at h
          rw [List.cons_append, tokensFrom_none hnext, tokensFrom_none hnext]
          intro heq
          exact ih h (List.cons.inj heq).2
      | some m'' =>
          rw [hnext] at h
          rw [List.cons_append, tokensFrom_some hnext, tokensFrom_some hnext]
          exact ih h

/-- What continues the last token of a text is not scanned separately. -/
theorem tokens_append_ne {xs ys : List α} (h : ¬ s.Breaks xs ys) (others : List (Token α μ)) :
  s.tokens (xs ++ ys) ≠ s.tokens xs ++ others
  := by
  cases xs with
  | nil => exact absurd trivial h
  | cons c xs =>
      cases ys with
      | nil => exact absurd trivial h
      | cons d ys =>
          obtain ⟨m', hm'⟩ := Option.ne_none_iff_exists'.mp h
          exact tokensFrom_append_ne hm' others

/-- What does not continue the last token of a text is scanned separately. -/
theorem tokens_append {xs ys : List α} (h : s.Breaks xs ys) :
  s.tokens (xs ++ ys) = s.tokens xs ++ s.tokens ys
  := by
  cases xs with
  | nil => rfl
  | cons c xs =>
      cases ys with
      | nil => simp [tokens]
      | cons d ys => exact tokensFrom_append h

/-- Whether a text breaks before another is decided by the first character of the other. -/
theorem breaks_append {xs ys zs : List α} (hys : ys ≠ []) :
  s.Breaks xs (ys ++ zs) ↔ s.Breaks xs ys
  := by
  cases ys with
  | nil => exact absurd rfl hys
  | cons d ys =>
      cases xs with
      | nil => exact Iff.rfl
      | cons c xs => exact Iff.rfl

/-- Texts put one after the other are scanned separately exactly when no text continues the
last token of the text before it. -/
theorem tokens_flatten_iff {texts : List (List α)} (htexts : ∀ text ∈ texts, text ≠ []) :
  s.tokens texts.flatten = texts.flatMap s.tokens ↔ texts.IsChain s.Breaks
  := by
  induction texts with
  | nil => exact iff_of_true rfl List.isChain_nil
  | cons text texts ih =>
      have hrest : ∀ text ∈ texts, text ≠ [] := by
        intro other hother
        exact htexts other (List.mem_cons_of_mem _ hother)
      cases texts with
      | nil =>
          apply iff_of_true _ (List.isChain_singleton text)
          simp
      | cons other texts =>
          have hother : other ≠ [] := hrest other List.mem_cons_self
          rw [List.isChain_cons_cons, ← ih hrest, List.flatMap_cons, List.flatten_cons]
          constructor
          · intro heq
            have hbreaks : s.Breaks text (other :: texts).flatten := by
              by_contra hbreaks
              exact tokens_append_ne hbreaks _ heq
            rw [tokens_append hbreaks] at heq
            rw [List.flatten_cons, breaks_append hother] at hbreaks
            exact ⟨hbreaks, List.append_cancel_left heq⟩
          · rintro ⟨hbreaks, heq⟩
            rw [← heq]
            apply tokens_append
            rw [List.flatten_cons, breaks_append hother]
            exact hbreaks

/-- What holds of the mode and the text of a token when it is started, and is kept when it is
continued, holds of every token. -/
theorem tokensFrom_invariant {R : μ → List α → Prop}
    (hstart : ∀ c, R (s.start c) [c])
    (hnext : ∀ m read c m', R m read → s.next m c = some m' → R m' (read ++ [c]))
    {m : μ} {read text : List α} (hread : R m read) {token : Token α μ}
    (h : token ∈ s.tokensFrom m read text) :
  R token.mode token.text
  := by
  induction text generalizing m read with
  | nil =>
      obtain rfl := List.mem_singleton.mp h
      exact hread
  | cons c text ih =>
      cases hc : s.next m c with
      | none =>
          rw [tokensFrom_none hc] at h
          obtain rfl | h := List.mem_cons.mp h
          · exact hread
          · exact ih (hstart c) h
      | some m' =>
          rw [tokensFrom_some hc] at h
          exact ih (hnext m read c m' hread hc) h

theorem tokens_invariant {R : μ → List α → Prop} (hstart : ∀ c, R (s.start c) [c])
    (hnext : ∀ m read c m', R m read → s.next m c = some m' → R m' (read ++ [c]))
    {text : List α} {token : Token α μ} (h : token ∈ s.tokens text) :
  R token.mode token.text
  := by
  cases text with
  | nil => cases h
  | cons c rest => exact tokensFrom_invariant hstart hnext (hstart c) h

/-- A token ends where the next one does not continue it. -/
def Ends (s : Scanner α μ) (token next : Token α μ) : Prop :=
  ∀ c ∈ next.text.head?, s.next token.mode c = none

theorem tokensFrom_ends (m : μ) (read text : List α) :
  (s.tokensFrom m read text).IsChain s.Ends
  := by
  induction text generalizing m read with
  | nil => exact List.isChain_singleton _
  | cons c text ih =>
      cases hc : s.next m c with
      | none =>
          rw [tokensFrom_none hc]
          obtain ⟨token, rest, htokens, hread⟩ := tokensFrom_head (s := s) (s.start c) [c] text
          have hrest := ih (s.start c) [c]
          rw [htokens] at hrest ⊢
          refine List.isChain_cons_cons.mpr ⟨?_, hrest⟩
          intro d hd
          obtain ⟨tail, htail⟩ := hread
          rw [← htail] at hd
          cases hd
          exact hc
      | some m' =>
          rw [tokensFrom_some hc]
          exact ih m' (read ++ [c])

theorem tokens_ends (text : List α) :
  (s.tokens text).IsChain s.Ends
  := by
  cases text with
  | nil => exact List.isChain_nil
  | cons c rest => exact tokensFrom_ends _ _ _

end Scanner
