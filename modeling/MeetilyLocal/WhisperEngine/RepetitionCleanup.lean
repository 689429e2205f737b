import Mathlib.Data.List.Destutter
import MeetilyLocal.Library.Binary32
import MeetilyLocal.Library.Lowercase
import MeetilyLocal.Library.Squares
import MeetilyLocal.Library.TextPositions
import MeetilyLocal.Library.Words

/-!
# Cleaning up repetitions

`clean_repetitive_text` (`whisper_engine/whisper_engine.rs`) takes the dots of the decoder out of a text,
then words that are said twice in a row, and then phrases of two to five words. The words that are left are
some of the text's, in its order. But phrases are taken out in one pass, which does not look back on what it
has kept: of a phrase that is said three times, two are left. A text of two words is not looked at, and for
what has no meaning only the text before the passes is. The law holds exactly where none of this matters
(`obeysLaw_iff`).
-/

namespace MeetilyLocal

namespace RepetitiveText

open Squares

/-! ## The dots of the decoder -/

/-- What is written for a run of dots. -/
def flush (dots : ℕ) : List Char := if 3 ≤ dots then [' '] else List.replicate dots '.'

/-- The loop, after a run of so many dots. -/
def stripDots : ℕ → List Char → List Char
  | dots, [] => flush dots
  | dots, c :: text => if c = '.' then stripDots (dots + 1) text else flush dots ++ c :: stripDots 0 text

/-- `strip_continuation_ellipses` -/
def stripContinuationEllipses (text : List Char) : List Char :=
  joinWords (splitWhitespace (stripDots 0 text))

/-! ## Words and phrases -/

section Words

variable {α : Type} [DecidableEq α]

/-- `remove_word_repetitions`: one of each run. -/
def removeWordRepetitions : List α → List α
  | [] => []
  | word :: words => word :: removeWordRepetitions (words.dropWhile (· = word))
termination_by words => words.length
decreasing_by exact Nat.lt_succ_of_le (List.length_dropWhile_le _ _)

/-- The length of the phrase that is said twice at the front, the shortest of two to five words. -/
def phraseLen (words : List α) : Option ℕ :=
  (List.range' 2 (min 5 (words.length / 2) - 1)).find? fun len =>
    len * 2 ≤ words.length ∧ words.take len = (words.drop len).take len

/-- What was found is said twice, and the rest comes after that. -/
theorem phraseLen_eq_some {words : List α} {len : ℕ} (h : phraseLen words = some len) :
    2 ≤ len ∧ len ≤ 5 ∧ (words.take len).length = len ∧
      words = words.take len ++ words.take len ++ words.drop (len * 2) := by
  rw [phraseLen] at h
  have hmem := List.mem_range'_1.mp (List.mem_of_find?_eq_some h)
  have hfound := List.find?_some h
  simp only [decide_eq_true_eq] at hfound
  obtain ⟨hlen, htwice⟩ := hfound
  refine ⟨hmem.1, by omega, by simp; omega, ?_⟩
  calc words = words.take len ++ words.drop len := (List.take_append_drop len words).symm
    _ = words.take len ++ ((words.drop len).take len ++ (words.drop len).drop len) := by
      rw [List.take_append_drop len (words.drop len)]
    _ = words.take len ++ words.take len ++ words.drop (len * 2) := by
      rw [← htwice, List.drop_drop, List.append_assoc, mul_two]

/-- The loop of `remove_phrase_repetitions`. -/
def phraseLoop : List α → List α
  | [] => []
  | word :: words =>
    match _h : phraseLen (word :: words) with
    | some len => (word :: words).take len ++ phraseLoop ((word :: words).drop (len * 2))
    | none => word :: phraseLoop words
termination_by words => words.length
decreasing_by
  · have hlen := (phraseLen_eq_some _h).1
    simp only [List.length_drop, List.length_cons]
    omega
  · exact Nat.lt_succ_self _

/-- `remove_phrase_repetitions` -/
def removePhraseRepetitions (words : List α) : List α :=
  if words.length < 4 then words else phraseLoop words

theorem phraseLen_eq_none_iff {words : List α} :
    phraseLen words = none ↔ NoSquareBegins 2 5 words := by
  constructor
  · intro h x hlo hhi hbegins
    rw [phraseLen, List.find?_eq_none] at h
    have hlen := hbegins.length_le
    rw [List.length_append] at hlen
    apply h x.length (List.mem_range'_1.mpr (by omega))
    obtain ⟨rest, rfl⟩ := hbegins
    simp only [decide_eq_true_eq]
    exact ⟨by omega, by simp [List.append_assoc]⟩
  · intro h
    rcases hlen : phraseLen words with _ | len
    · rfl
    · obtain ⟨hlo, hhi, htake, hwords⟩ := phraseLen_eq_some hlen
      refine absurd ⟨words.drop (len * 2), hwords.symm⟩ (h (words.take len) ?_ ?_)
      · rwa [htake]
      · rwa [htake]

theorem phraseLoop_of_some {words : List α} {len : ℕ} (h : phraseLen words = some len) :
    phraseLoop words = words.take len ++ phraseLoop (words.drop (len * 2)) := by
  cases words with
  | nil => simp [phraseLen] at h
  | cons word words =>
    rw [phraseLoop]
    split <;> simp_all

theorem phraseLoop_of_none {word : α} {words : List α} (h : phraseLen (word :: words) = none) :
    phraseLoop (word :: words) = word :: phraseLoop words := by
  rw [phraseLoop]
  split <;> simp_all

theorem phraseLoop_sublist (words : List α) : (phraseLoop words).Sublist words := by
  fun_induction phraseLoop words with
  | case1 => exact .slnil
  | case2 word words len h ih =>
    obtain ⟨-, -, -, hwords⟩ := phraseLen_eq_some h
    refine (ih.append_left _).trans ?_
    conv_rhs => rw [hwords]
    exact (List.sublist_append_left _ _).append_right _
  | case3 word words h ih => exact ih.cons_cons word

theorem phraseLoop_ne_nil {words : List α} (h : words ≠ []) : phraseLoop words ≠ [] := by
  obtain ⟨word, words, rfl⟩ := List.exists_cons_of_ne_nil h
  rcases hlen : phraseLen (word :: words) with _ | len
  · rw [phraseLoop_of_none hlen]
    simp
  · obtain ⟨hlo, -, htake, -⟩ := phraseLen_eq_some hlen
    rw [phraseLoop_of_some hlen]
    apply List.append_ne_nil_of_left_ne_nil
    rw [← List.length_pos_iff, htake]
    omega

/-- Taking out phrases does not put a word next to itself. -/
theorem isChain_phraseLoop {words : List α} :
    ∀ before : List α, (before ++ words).IsChain (· ≠ ·) →
      (before ++ phraseLoop words).IsChain (· ≠ ·) := by
  fun_induction phraseLoop words with
  | case1 =>
    intro before h
    exact h
  | case2 word words len h ih =>
    intro before hchain
    obtain ⟨hlo, -, htake, hwords⟩ := phraseLen_eq_some h
    have hne : (word :: words).take len ≠ [] := by
      rw [← List.length_pos_iff, htake]
      omega
    rw [hwords, ← List.append_assoc, ← List.append_assoc] at hchain
    rw [← List.append_assoc]
    -- the last word that is kept is the last one of the phrase, as it was before
    apply hchain.left_of_append.left_of_append.append_overlap _ hne
    apply ih
    rw [List.append_assoc, List.append_assoc] at hchain
    exact hchain.right_of_append.right_of_append
  | case3 word words h ih =>
    intro before hchain
    rw [List.append_cons] at hchain ⊢
    apply hchain.left_of_append.append_overlap _ (List.cons_ne_nil word [])
    apply ih
    rw [List.append_assoc] at hchain
    exact hchain.right_of_append

/-- What has no phrase said twice stays as it is. -/
theorem phraseLoop_of_avoidsSquares {words : List α} (h : AvoidsSquares 2 5 words) :
    phraseLoop words = words := by
  induction words with
  | nil => simp [phraseLoop]
  | cons word words ih =>
    obtain ⟨hbegins, hrest⟩ := avoidsSquares_cons.mp h
    rw [phraseLoop_of_none (phraseLen_eq_none_iff.mpr hbegins), ih hrest]

theorem removePhraseRepetitions_eq (words : List α) : removePhraseRepetitions words = phraseLoop words := by
  rw [removePhraseRepetitions]
  split_ifs with hshort
  · refine (phraseLoop_of_avoidsSquares ?_).symm
    intro x hx _ hinside
    have hlen := hinside.length_le
    rw [List.length_append] at hlen
    omega
  · rfl

theorem removeWordRepetitions_eq_destutter (words : List α) :
    removeWordRepetitions words = words.destutter (· ≠ ·) := by
  fun_induction removeWordRepetitions words with
  | case1 => rfl
  | case2 word words ih =>
    rw [ih, List.destutter_cons']
    clear ih
    induction words with
    | nil => rfl
    | cons next words ih =>
      rw [List.destutter'_cons]
      split_ifs with hne
      · rw [List.dropWhile_cons_of_neg (by simpa using hne.symm), List.destutter_cons']
      · obtain rfl := not_not.mp hne
        rw [List.dropWhile_cons_of_pos (by simp), ih]

/-! ## The pass over the phrases -/

/-- The states of the pass: the words that are kept, and those that are left. -/
inductive Passes (words : List α) : List α → List α → Prop
  | start : Passes words [] words
  | skip {kept rest : List α} {len : ℕ} (h : Passes words kept rest) (hlen : phraseLen rest = some len) :
      Passes words (kept ++ rest.take len) (rest.drop (len * 2))
  | keep {kept rest : List α} {word : α} (h : Passes words kept (word :: rest))
      (hlen : phraseLen (word :: rest) = none) : Passes words (kept ++ [word]) rest

/-- What the next step keeps. -/
def keptNext (rest : List α) : List α :=
  match phraseLen rest with
  | some len => rest.take len
  | none => rest.take 1

/-- No step keeps words that complete, with those that are kept, a phrase said twice. -/
def NeverCompletes (words : List α) : Prop :=
  ∀ kept rest, Passes words kept rest →
    ∀ y, y ≠ [] → y <+: keptNext rest → NoSquareEnds 2 5 (kept ++ y)

theorem prefix_keptNext (rest : List α) : keptNext rest <+: phraseLoop rest := by
  rw [keptNext]
  split
  · next len hlen =>
    rw [phraseLoop_of_some hlen]
    exact List.prefix_append _ _
  · next hlen =>
    cases rest with
    | nil => simp
    | cons word rest =>
      rw [phraseLoop_of_none hlen]
      simp

theorem Passes.append_phraseLoop {words kept rest : List α} (h : Passes words kept rest) :
    kept ++ phraseLoop rest = phraseLoop words := by
  induction h with
  | start => rfl
  | skip _ hlen ih => rw [List.append_assoc, ← phraseLoop_of_some hlen, ih]
  | keep _ hlen ih => rw [List.append_assoc, List.singleton_append, ← phraseLoop_of_none hlen, ih]

/-- Every pass ends. -/
theorem Passes.ends {words kept rest : List α} (h : Passes words kept rest) :
    ∃ all, Passes words all [] := by
  fun_induction phraseLoop rest generalizing kept with
  | case1 => exact ⟨kept, h⟩
  | case2 word rest len hlen ih => exact ih (h.skip hlen)
  | case3 word rest hlen ih => exact ih (h.keep hlen)

theorem passes_end_iff {words kept : List α} : Passes words kept [] ↔ kept = phraseLoop words := by
  have heq : ∀ {all : List α}, Passes words all [] → all = phraseLoop words := by
    intro all hall
    rw [← hall.append_phraseLoop, phraseLoop, List.append_nil]
  refine ⟨heq, ?_⟩
  rintro rfl
  obtain ⟨all, hall⟩ := (Passes.start : Passes words [] words).ends
  rwa [← heq hall]

theorem Passes.avoidsSquares {words kept rest : List α} (h : Passes words kept rest)
    (hnever : NeverCompletes words) : AvoidsSquares 2 5 kept := by
  induction h with
  | start => exact avoidsSquares_nil Nat.two_pos
  | @skip kept rest len h hlen ih =>
    refine avoidsSquares_append.mpr ⟨ih, ?_⟩
    have hstep := hnever kept rest h
    rwa [keptNext, hlen] at hstep
  | @keep kept rest word h hlen ih =>
    refine avoidsSquares_append.mpr ⟨ih, ?_⟩
    have hstep := hnever kept (word :: rest) h
    rwa [keptNext, hlen] at hstep

/-- **What the pass keeps** has no phrase said twice if and only if no step completes one. -/
theorem avoidsSquares_phraseLoop_iff (words : List α) :
    AvoidsSquares 2 5 (phraseLoop words) ↔ NeverCompletes words := by
  constructor
  · intro h kept rest hpass y _ hy x hlo hhi hends
    have hkept : kept ++ y <+: phraseLoop words := by
      rw [← hpass.append_phraseLoop]
      exact (List.prefix_append_right_inj kept).mpr (hy.trans (prefix_keptNext rest))
    exact h x hlo hhi (hends.isInfix.trans hkept.isInfix)
  · exact (passes_end_iff.mpr rfl).avoidsSquares

end Words

/-! ## The text -/

/-- A text without a run of three dots. -/
def NoEllipsis (text : List Char) : Prop := ¬['.', '.', '.'] <:+: text

section Text

variable (tables : CaseTables)

/-- What is taken to have no meaning. -/
def meaninglessPatterns : List String :=
  ["thank you for watching", "thanks for watching", "like and subscribe", "music playing", "applause",
    "laughter", "um um um", "uh uh uh", "ah ah ah"]

/-- `is_meaningless_output` -/
def isMeaninglessOutput (text : List Char) : Bool :=
  meaninglessPatterns.any (fun pattern => pattern.toList <:+: tables.lowercase text) ||
    (text.dedup.length ≤ 3 && 10 < Utf8.len text)

/-- `calculate_repetition_ratio`, in single precision -/
def calculateRepetitionRatio (text : List Char) : ℚ :=
  let words := splitWhitespace text
  if words.length < 4 then 0
  else
    let lowered := words.map tables.lowercase
    let repeated := (lowered.dedup.map fun word => lowered.count word - 1).sum
    Binary32.round (Binary32.round repeated / Binary32.round words.length)

/-- Whether a text has too many repetitions. -/
def isRepetitive (text : List Char) : Bool :=
  Binary32.round (7 / 10) < calculateRepetitionRatio tables text

/-- `clean_repetitive_text` -/
def cleanRepetitiveText (text : List Char) : List Char :=
  if text = [] then []
  else
    let text := stripContinuationEllipses text
    if text = [] then []
    else if isMeaninglessOutput tables text then []
    else
      let words := splitWhitespace text
      if words.length < 3 then text
      else
        let finalText := joinWords (removePhraseRepetitions (removeWordRepetitions words))
        if isRepetitive tables finalText then [] else finalText

end Text

/-! ## Texts without ellipses -/

/-- Around what is not in it, a part is on one side. -/
theorem isInfix_append_cons {part front back : List Char} {c : Char} (hc : c ∉ part)
    (h : part <:+: front ++ c :: back) : part <:+: front ∨ part <:+: back := by
  obtain ⟨before, after, heq⟩ := h
  obtain ⟨mid, hfront, -⟩ | ⟨mid, hmid, hback⟩ := List.append_eq_append_iff.mp heq
  · exact .inl ⟨before, mid, hfront.symm⟩
  · obtain ⟨rest, hfront, hpart⟩ | ⟨rest, -, hrest⟩ := List.append_eq_append_iff.mp hmid
    · cases mid with
      | nil => exact .inl ⟨before, [], by simp [hfront, hpart]⟩
      | cons d mid =>
        obtain ⟨rfl, -⟩ := List.cons_eq_cons.mp hback
        exact absurd (by simp [hpart]) hc
    · rw [hrest] at hback
      cases rest with
      | nil =>
        cases part with
        | nil => exact .inl (List.nil_infix)
        | cons d part =>
          obtain ⟨rfl, -⟩ := List.cons_eq_cons.mp hback
          exact absurd List.mem_cons_self hc
      | cons d rest =>
        obtain ⟨-, hback⟩ := List.cons_eq_cons.mp hback
        exact .inr ⟨rest, after, hback.symm⟩

theorem NoEllipsis.append_cons {front back : List Char} {c : Char} (hc : c ≠ '.')
    (hfront : NoEllipsis front) (hback : NoEllipsis back) : NoEllipsis (front ++ c :: back) := by
  intro h
  obtain h | h := isInfix_append_cons (by simpa using hc) h
  · exact hfront h
  · exact hback h

theorem noEllipsis_of_length {text : List Char} (h : text.length < 3) : NoEllipsis text := by
  intro hinside
  have hlen := hinside.length_le
  simp only [List.length_cons, List.length_nil] at hlen
  omega

theorem noEllipsis_flush (dots : ℕ) : NoEllipsis (flush dots) := by
  apply noEllipsis_of_length
  rw [flush]
  split_ifs with h
  · simp
  · rw [List.length_replicate]
    omega

/-- What is stripped has no ellipsis. -/
theorem noEllipsis_stripDots (dots : ℕ) (text : List Char) : NoEllipsis (stripDots dots text) := by
  induction text generalizing dots with
  | nil => exact noEllipsis_flush dots
  | cons c text ih =>
    rw [stripDots]
    split_ifs with hc
    · exact ih (dots + 1)
    · exact (noEllipsis_flush dots).append_cons hc (ih 0)

theorem NoEllipsis.of_isInfix {part text : List Char} (h : NoEllipsis text) (hpart : part <:+: text) :
    NoEllipsis part := fun hinside => h (hinside.trans hpart)

theorem lt_three_of_noEllipsis {dots : ℕ} {text : List Char}
    (h : NoEllipsis (List.replicate dots '.' ++ text)) : dots < 3 := by
  by_contra hge
  obtain ⟨more, rfl⟩ := Nat.exists_eq_add_of_le (not_lt.mp hge)
  apply h
  rw [List.replicate_add, List.append_assoc]
  exact (List.prefix_append _ _).isInfix

/-- A text without an ellipsis stays as it is. -/
theorem stripDots_of_noEllipsis {dots : ℕ} {text : List Char}
    (h : NoEllipsis (List.replicate dots '.' ++ text)) :
    stripDots dots text = List.replicate dots '.' ++ text := by
  have hflush : ∀ {d : ℕ}, d < 3 → flush d = List.replicate d '.' := fun hd => if_neg (by omega)
  induction text generalizing dots with
  | nil => rw [stripDots, hflush (lt_three_of_noEllipsis h), List.append_nil]
  | cons c text ih =>
    rw [stripDots]
    split_ifs with hc
    · subst hc
      rw [List.append_cons, ← List.replicate_succ'] at h ⊢
      exact ih h
    · have hrest : NoEllipsis text := by
        apply h.of_isInfix
        exact ⟨List.replicate dots '.' ++ [c], [], by simp⟩
      rw [hflush (lt_three_of_noEllipsis h), ih (by simpa using hrest)]
      rfl

theorem noEllipsis_joinWords {words : List (List Char)} (h : ∀ word ∈ words, NoEllipsis word) :
    NoEllipsis (joinWords words) := by
  induction words with
  | nil => exact noEllipsis_of_length (by decide)
  | cons word words ih =>
    obtain ⟨hword, hrest⟩ := List.forall_mem_cons.mp h
    cases words with
    | nil => simpa [joinWords, List.intercalate] using hword
    | cons next words =>
      rw [joinWords_cons_cons]
      exact hword.append_cons (by decide) (ih hrest)

/-- The words of a text that was stripped. -/
theorem splitWhitespace_stripContinuationEllipses (text : List Char) :
    splitWhitespace (stripContinuationEllipses text) = splitWhitespace (stripDots 0 text) :=
  splitWhitespace_joinWords fun _ => isWord_of_mem

/-- The words that are left of a text that was stripped, joined, are stripped. -/
theorem stripContinuationEllipses_joinWords {text : List Char} {kept : List (List Char)}
    (h : kept ⊆ splitWhitespace (stripContinuationEllipses text)) :
    splitWhitespace (joinWords kept) = kept ∧
      stripContinuationEllipses (joinWords kept) = joinWords kept := by
  rw [splitWhitespace_stripContinuationEllipses] at h
  have hkept : splitWhitespace (joinWords kept) = kept :=
    splitWhitespace_joinWords fun word hword => isWord_of_mem (h hword)
  refine ⟨hkept, ?_⟩
  have hstrip : stripDots 0 (joinWords kept) = joinWords kept := by
    apply stripDots_of_noEllipsis
    apply noEllipsis_joinWords
    intro word hword
    exact (noEllipsis_stripDots 0 text).of_isInfix (infix_of_mem_splitWhitespace (h hword))
  rw [stripContinuationEllipses, hstrip, hkept]

/-! ## The law -/

section Law

variable (tables : CaseTables) (text : List Char)

/-- **The law of the clean-up**: the words that are left are some of the text's, in its order; none of
them, and no phrase of two to five, is said twice in a row; and to clean up again changes nothing. -/
structure ObeysLaw : Prop where
  sublist : (splitWhitespace (cleanRepetitiveText tables text)).Sublist
    (splitWhitespace (stripContinuationEllipses text))
  /-- words, and phrases of two to five words -/
  avoidsSquares : AvoidsSquares 1 5 (splitWhitespace (cleanRepetitiveText tables text))
  again : cleanRepetitiveText tables (cleanRepetitiveText tables text) = cleanRepetitiveText tables text

/-- The words of a text, as the pass over the phrases gets them. -/
def passWords : List (List Char) :=
  removeWordRepetitions (splitWhitespace (stripContinuationEllipses text))

/-- **When it is obeyed**: nothing is left of the text before the passes; or there are at most two words,
and they differ; or the pass never completes a phrase with what it has kept, and what it has kept in the
end has a meaning, or it is left out for too many repetitions. -/
def Settles : Prop :=
  let stripped := stripContinuationEllipses text
  stripped = [] ∨ isMeaninglessOutput tables stripped = true ∨
    (splitWhitespace stripped).length < 3 ∧ (¬∃ word, splitWhitespace stripped = [word, word]) ∨
    3 ≤ (splitWhitespace stripped).length ∧
      ∃ kept, Passes (passWords text) kept [] ∧
        (isRepetitive tables (joinWords kept) = true ∨
          NeverCompletes (passWords text) ∧ isMeaninglessOutput tables (joinWords kept) = false)

variable {tables text}

theorem passWords_sublist (text : List Char) :
    (passWords text).Sublist (splitWhitespace (stripContinuationEllipses text)) := by
  rw [passWords, removeWordRepetitions_eq_destutter]
  exact List.destutter_sublist _ _

/-- What is kept of a text in the end. -/
theorem phraseLoop_passWords_sublist (text : List Char) :
    (phraseLoop (passWords text)).Sublist (splitWhitespace (stripContinuationEllipses text)) :=
  (phraseLoop_sublist _).trans (passWords_sublist text)

theorem isChain_phraseLoop_passWords (text : List Char) :
    (phraseLoop (passWords text)).IsChain (· ≠ ·) := by
  apply isChain_phraseLoop []
  rw [List.nil_append, passWords, removeWordRepetitions_eq_destutter]
  exact List.isChain_destutter _ _

/-- The clean-up looks at nothing but the text that was stripped. -/
theorem cleanRepetitiveText_eq (tables : CaseTables) (text : List Char) :
    cleanRepetitiveText tables text =
      if stripContinuationEllipses text = [] then []
      else if isMeaninglessOutput tables (stripContinuationEllipses text) then []
      else if (splitWhitespace (stripContinuationEllipses text)).length < 3 then
        stripContinuationEllipses text
      else if isRepetitive tables (joinWords (phraseLoop (passWords text))) then []
      else joinWords (phraseLoop (passWords text)) := by
  by_cases hnil : text = []
  · subst hnil
    rfl
  · rw [cleanRepetitiveText, if_neg hnil, ← removePhraseRepetitions_eq]
    rfl

theorem joinWords_stripped (text : List Char) :
    joinWords (splitWhitespace (stripContinuationEllipses text)) = stripContinuationEllipses text := by
  rw [splitWhitespace_stripContinuationEllipses]
  rfl

theorem strip_strip (text : List Char) :
    stripContinuationEllipses (stripContinuationEllipses text) = stripContinuationEllipses text := by
  have hself := List.Subset.refl (splitWhitespace (stripContinuationEllipses text))
  have hagain := (stripContinuationEllipses_joinWords hself).2
  rwa [joinWords_stripped] at hagain

theorem cleanRepetitiveText_strip (tables : CaseTables) (text : List Char) :
    cleanRepetitiveText tables (stripContinuationEllipses text) = cleanRepetitiveText tables text := by
  rw [cleanRepetitiveText_eq, cleanRepetitiveText_eq, passWords, passWords, strip_strip]

theorem ObeysLaw.of_eq_nil (h : cleanRepetitiveText tables text = []) : ObeysLaw tables text := by
  refine ⟨?_, ?_, ?_⟩
  · rw [h]
    exact List.nil_sublist _
  · rw [h]
    exact avoidsSquares_nil Nat.one_pos
  · rw [h]
    rfl

/-- Two words at most make a square only if they are the same. -/
theorem avoidsSquares_iff_of_length {α : Type} {l : List α} (h : l.length < 3) :
    AvoidsSquares 1 5 l ↔ ¬∃ a, l = [a, a] := by
  constructor
  · rintro hsquare ⟨a, rfl⟩
    exact hsquare [a] le_rfl (by simp) List.infix_rfl
  · intro hne x hlo _ hinside
    have hlen := hinside.length_le
    rw [List.length_append] at hlen
    obtain ⟨a, rfl⟩ := List.length_eq_one_iff.mp (show x.length = 1 by omega)
    apply hne
    exact ⟨a, (hinside.eq_of_length (by simp at hlen ⊢; omega)).symm⟩

theorem obeysLaw_of_short (hne : stripContinuationEllipses text ≠ [])
    (hmeaning : isMeaninglessOutput tables (stripContinuationEllipses text) = false)
    (hshort : (splitWhitespace (stripContinuationEllipses text)).length < 3) :
    ObeysLaw tables text ↔ ¬∃ word, splitWhitespace (stripContinuationEllipses text) = [word, word] := by
  have hclean : cleanRepetitiveText tables text = stripContinuationEllipses text := by
    simp [cleanRepetitiveText_eq, hne, hmeaning, hshort]
  rw [← avoidsSquares_iff_of_length hshort]
  constructor
  · intro hlaw
    have hsquares := hlaw.avoidsSquares
    rwa [hclean] at hsquares
  · intro hsquares
    refine ⟨?_, ?_, ?_⟩
    · rw [hclean]
    · rwa [hclean]
    · rw [hclean, cleanRepetitiveText_strip, hclean]

/-- Words without squares are left alone by the passes. -/
theorem cleanRepetitiveText_joinWords {kept : List (List Char)}
    (hkept : kept ⊆ splitWhitespace (stripContinuationEllipses text)) (hne : kept ≠ [])
    (hchain : kept.IsChain (· ≠ ·)) (hsquares : AvoidsSquares 2 5 kept)
    (hrepetitive : isRepetitive tables (joinWords kept) = false) :
    cleanRepetitiveText tables (joinWords kept) =
      if isMeaninglessOutput tables (joinWords kept) then [] else joinWords kept := by
  obtain ⟨hwords, hstrip⟩ := stripContinuationEllipses_joinWords hkept
  have hjoin : joinWords kept ≠ [] :=
    joinWords_ne_nil hne fun word hword => isWord_of_mem (hkept hword)
  have hpass : phraseLoop (passWords (joinWords kept)) = kept := by
    rw [passWords, hstrip, hwords, removeWordRepetitions_eq_destutter,
      List.destutter_of_isChain _ _ hchain, phraseLoop_of_avoidsSquares hsquares]
  rw [cleanRepetitiveText_eq, hstrip, if_neg hjoin, hpass, hrepetitive]
  simp

theorem obeysLaw_of_long (hne : stripContinuationEllipses text ≠ [])
    (hmeaning : isMeaninglessOutput tables (stripContinuationEllipses text) = false)
    (hlong : 3 ≤ (splitWhitespace (stripContinuationEllipses text)).length)
    (hrepetitive : isRepetitive tables (joinWords (phraseLoop (passWords text))) = false) :
    ObeysLaw tables text ↔
      NeverCompletes (passWords text) ∧
        isMeaninglessOutput tables (joinWords (phraseLoop (passWords text))) = false := by
  set kept := phraseLoop (passWords text) with hkept
  have hclean : cleanRepetitiveText tables text = joinWords kept := by
    simp [cleanRepetitiveText_eq, hne, hmeaning, hrepetitive, ← hkept, Nat.not_lt.mpr hlong]
  have hsubset : kept ⊆ splitWhitespace (stripContinuationEllipses text) :=
    (phraseLoop_passWords_sublist text).subset
  have hwords : splitWhitespace (joinWords kept) = kept := (stripContinuationEllipses_joinWords hsubset).1
  have hnil : kept ≠ [] := by
    apply phraseLoop_ne_nil
    rw [passWords, removeWordRepetitions_eq_destutter, Ne, List.destutter_eq_nil,
      ← List.length_eq_zero_iff]
    omega
  have hchain : kept.IsChain (· ≠ ·) := isChain_phraseLoop_passWords text
  have hsquares : AvoidsSquares 1 5 kept ↔ NeverCompletes (passWords text) := by
    rw [avoidsSquares_split 1 (by omega) (by omega), avoidsSquares_one_iff,
      and_iff_right hchain, hkept, avoidsSquares_phraseLoop_iff]
  have hagain (hnever : NeverCompletes (passWords text)) := cleanRepetitiveText_joinWords hsubset hnil
    hchain ((avoidsSquares_phraseLoop_iff _).mpr hnever) hrepetitive
  constructor
  · intro hlaw
    have hnever := hlaw.avoidsSquares
    rw [hclean, hwords, hsquares] at hnever
    refine ⟨hnever, ?_⟩
    have hsame := hlaw.again
    rw [hclean, hagain hnever] at hsame
    rcases hmeaningless : isMeaninglessOutput tables (joinWords kept) with _ | _
    · rfl
    · rw [hmeaningless, if_pos rfl] at hsame
      exact absurd hsame.symm (joinWords_ne_nil hnil fun word hword => isWord_of_mem (hsubset hword))
  · rintro ⟨hnever, hmeaningful⟩
    refine ⟨?_, ?_, ?_⟩
    · rw [hclean, hwords]
      exact phraseLoop_passWords_sublist text
    · rwa [hclean, hwords, hsquares]
    · rw [hclean, hagain hnever, hmeaningful]
      rfl

/-- **The clean-up obeys its law** on exactly the texts that settle. -/
theorem obeysLaw_iff (tables : CaseTables) (text : List Char) :
    ObeysLaw tables text ↔ Settles tables text := by
  rw [Settles]
  simp only [passes_end_iff, exists_eq_left]
  by_cases hne : stripContinuationEllipses text = []
  · have hclean : cleanRepetitiveText tables text = [] := by rw [cleanRepetitiveText_eq, if_pos hne]
    exact iff_of_true (.of_eq_nil hclean) (.inl hne)
  rcases hmeaning : isMeaninglessOutput tables (stripContinuationEllipses text) with _ | _
  · obtain hshort | hlong := Nat.lt_or_ge (splitWhitespace (stripContinuationEllipses text)).length 3
    · rw [obeysLaw_of_short hne hmeaning hshort]
      simp [hne, hshort, Nat.not_le.mpr hshort]
    · rcases hrepetitive : isRepetitive tables (joinWords (phraseLoop (passWords text))) with _ | _
      · rw [obeysLaw_of_long hne hmeaning hlong hrepetitive]
        simp [hne, hlong, Nat.not_lt.mpr hlong]
      · have hclean : cleanRepetitiveText tables text = [] := by
          simp [cleanRepetitiveText_eq, hne, hmeaning, hrepetitive, Nat.not_lt.mpr hlong]
        exact iff_of_true (.of_eq_nil hclean) (.inr (.inr (.inr ⟨hlong, .inl rfl⟩)))
  · have hclean : cleanRepetitiveText tables text = [] := by
      simp [cleanRepetitiveText_eq, hne, hmeaning]
    exact iff_of_true (.of_eq_nil hclean) (.inr (.inl rfl))

end Law

/-- A phrase that is said three times is said twice when it was cleaned up, and once after that. -/
theorem not_obeysLaw_threeTimes :
    ¬ObeysLaw .onlyAscii ['n', 'o', ' ', 'w', 'e', ' ', 'n', 'o', ' ', 'w', 'e', ' ', 'n', 'o', ' ',
      'w', 'e'] := by
  intro h
  have hagain := h.again
  revert hagain
  decide +kernel

end RepetitiveText

end MeetilyLocal
