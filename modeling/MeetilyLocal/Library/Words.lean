import MeetilyLocal.Library.Text

/-!
# The words of a text

`splitWhitespace` is `str::split_whitespace`, and `joinWords` puts words back together with a space in
between, as `join(" ")` does; the words are found again in what was joined (`splitWhitespace_joinWords`).
`commonPrefixLen` is how far two lists agree.
-/

namespace MeetilyLocal

/-! ## Splitting and joining -/

/-- `str::split_whitespace` -/
def splitWhitespace (text : List Char) : List (List Char) :=
  (text.splitOnP isWhiteSpace).filter (· ≠ [])

/-- `join(" ")` -/
def joinWords (words : List (List Char)) : List Char := [' '].intercalate words

/-- A word has a character, and no white space. -/
def IsWord (word : List Char) : Prop := word ≠ [] ∧ ∀ c ∈ word, isWhiteSpace c = false

theorem joinWords_cons_cons (word next : List Char) (words : List (List Char)) :
    joinWords (word :: next :: words) = word ++ ' ' :: joinWords (next :: words) := by
  simp [joinWords, List.intercalate]

theorem forall_mem_splitOnP (text : List Char) :
    ∀ piece ∈ text.splitOnP isWhiteSpace, ∀ c ∈ piece, isWhiteSpace c = false := by
  induction text with
  | nil => simp
  | cons c text ih =>
    rw [List.splitOnP_cons_eq_if_modifyHead]
    split
    · simpa using ih
    · next hc =>
      obtain ⟨first, rest, hsplit⟩ :=
        List.exists_cons_of_ne_nil (List.splitOnP_ne_nil isWhiteSpace text)
      rw [hsplit] at ih ⊢
      obtain ⟨hfirst, hrest⟩ := List.forall_mem_cons.mp ih
      refine List.forall_mem_cons.mpr ⟨List.forall_mem_cons.mpr ⟨?_, hfirst⟩, hrest⟩
      simpa using hc

theorem isWord_of_mem {text word : List Char} (h : word ∈ splitWhitespace text) : IsWord word := by
  obtain ⟨hpiece, hne⟩ := List.mem_filter.mp h
  exact ⟨by simpa using hne, forall_mem_splitOnP text word hpiece⟩

/-- The first piece is at the front, and the others are somewhere behind. -/
theorem exists_splitOnP_eq (text : List Char) :
    ∃ first rest, text.splitOnP isWhiteSpace = first :: rest ∧ first <+: text ∧
      ∀ piece ∈ rest, piece <:+: text := by
  induction text with
  | nil => exact ⟨[], [], rfl, List.prefix_rfl, by simp⟩
  | cons c text ih =>
    obtain ⟨first, rest, hsplit, hfirst, hrest⟩ := ih
    rw [List.splitOnP_cons_eq_if_modifyHead, hsplit]
    split
    · refine ⟨[], first :: rest, rfl, List.nil_prefix, List.forall_mem_cons.mpr ⟨?_, ?_⟩⟩
      · exact List.infix_cons hfirst.isInfix
      · exact fun piece hpiece => List.infix_cons (hrest piece hpiece)
    · refine ⟨c :: first, rest, rfl, (List.prefix_cons_inj c).mpr hfirst, ?_⟩
      exact fun piece hpiece => List.infix_cons (hrest piece hpiece)

theorem infix_of_mem_splitWhitespace {text word : List Char} (h : word ∈ splitWhitespace text) :
    word <:+: text := by
  obtain ⟨first, rest, hsplit, hfirst, hrest⟩ := exists_splitOnP_eq text
  have hpiece := (List.mem_filter.mp h).1
  rw [hsplit] at hpiece
  obtain rfl | hmem := List.mem_cons.mp hpiece
  · exact hfirst.isInfix
  · exact hrest word hmem

/-- **The words are found again.** -/
theorem splitWhitespace_joinWords {words : List (List Char)} (h : ∀ word ∈ words, IsWord word) :
    splitWhitespace (joinWords words) = words := by
  induction words with
  | nil => rfl
  | cons word words ih =>
    obtain ⟨⟨hne, hword⟩, hrest⟩ := List.forall_mem_cons.mp h
    cases words with
    | nil =>
      rw [splitWhitespace, show joinWords [word] = word by simp [joinWords, List.intercalate],
        List.splitOnP_eq_singleton hword]
      simp [hne]
    | cons next words =>
      rw [splitWhitespace, joinWords_cons_cons,
        List.splitOnP_append_cons_of_forall_mem hword ' ' (by decide),
        List.filter_cons_of_pos (by simpa using hne)]
      exact congrArg (word :: ·) (ih hrest)

theorem joinWords_ne_nil {words : List (List Char)} (hne : words ≠ [])
    (h : ∀ word ∈ words, IsWord word) : joinWords words ≠ [] := by
  intro hnil
  have hwords := splitWhitespace_joinWords h
  rw [hnil] at hwords
  exact hne hwords.symm

/-! ## How far two lists agree -/

universe u

variable {α : Type u} [DecidableEq α]

/-- The length of the longest common prefix. -/
def commonPrefixLen (a b : List α) : ℕ := ((a.zip b).takeWhile fun (x, y) => x == y).length

theorem commonPrefixLen_le (a b : List α) : commonPrefixLen a b ≤ b.length :=
  calc commonPrefixLen a b ≤ (a.zip b).length := (List.takeWhile_sublist _).length_le
    _ ≤ b.length := by
      rw [List.length_zip]
      exact Nat.min_le_right _ _

end MeetilyLocal
