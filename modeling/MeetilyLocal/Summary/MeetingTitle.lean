import MeetilyLocal.Library.Lowercase

/-!
# The title of a meeting

The embedding of `sanitize_meeting_title` (`summary/processor.rs`), which takes brackets, quotes and the
words that a model leaks from its prompt off a title. The words are compared with the lowercase of the
title, but cut off the title itself; both are as long there (`stripLeak_cases`).

A title is trimmed of white space first, and then of brackets and spaces. Where those stand in front of
other white space, a title is left that starts with it, and is trimmed again the next time
(`not_idempotent_tab`). `Left` is what is left of a title before each of its trims, and the titles that are
left alone the second time are those where no trim stops at white space (`Settles`, `idempotent_iff`).
-/

namespace MeetilyLocal

namespace MeetingTitle

open Utf8

/-! ## The code -/

/-- `trim_chars`: brackets, quotes, marks of Markdown and the space -/
def isTrimChar (c : Char) : Bool :=
  c ∈ ['[', ']', '(', ')', '<', '>', '\x22', '\x27', '*', '#', ' ']

/-- What may stand between a leaked word and the title. -/
def isSeparator (c : Char) : Bool := c ∈ [':', '-', '–', '—', ']', ')']

/-- `LEAK_PREFIXES` -/
def leakPrefixes : List (List Char) :=
  ["ai-generated title".toList, "ai generated title".toList, "ai-generated meeting title".toList,
    "ai-generated summary title".toList, "generated title".toList, "meeting title".toList,
    "meeting summary".toList, "summary title".toList, "title".toList]

/-- `PLACEHOLDER_TITLES` -/
def placeholderTitles : List (List Char) :=
  ["add title here".toList, "add a title here".toList, "insert title here".toList]

/-- What is behind the first of the words that the title starts with and a separator follows; none
inside if there is no such word, none outside where a slice panics. -/
def stripLeak (lower s : List Char) : List (List Char) → Option (Option (List Char))
  | [] => some none
  | word :: words =>
    if word <+: lower then
      match sliceAt? s (len word) (len s) with
      | none => none
      | some rest =>
        let restTrimmed := rest.dropWhile isWhiteSpace
        if restTrimmed.head?.any isSeparator then
          some (some ((restTrimmed.dropWhile isSeparator).dropWhile isWhiteSpace))
        else stripLeak lower s words
    else stripLeak lower s words

theorem sliceAt?_len_isSuffix {text rest : List Char} {k : ℕ}
    (h : sliceAt? text k (len text) = some rest) : rest <:+ text := by
  rw [sliceAt?] at h
  split at h
  · rw [← Option.some.inj h, upTo_eq_of_isPrefix List.prefix_rfl]
    exact List.drop_suffix _ _
  · cases h

/-- What is behind a word is shorter. -/
theorem length_of_stripLeak {lower s behind : List Char} {words : List (List Char)}
    (h : stripLeak lower s words = some (some behind)) : behind <:+ s ∧ behind.length < s.length := by
  induction words with
  | nil => cases h
  | cons word words ih =>
    rw [stripLeak] at h
    split at h
    · split at h
      · cases h
      · next rest hrest =>
        simp only at h
        split at h
        · next hseparator =>
          obtain rfl := Option.some.inj (Option.some.inj h)
          have hin := (List.dropWhile_suffix (l := rest) isWhiteSpace).trans
            (sliceAt?_len_isSuffix hrest)
          rcases hcons : rest.dropWhile isWhiteSpace with _ | ⟨c, more⟩
          · simp [hcons] at hseparator
          · -- the separator is cut off, at least
            rw [hcons] at hseparator hin
            rw [List.dropWhile_cons_of_pos (by simpa using hseparator)]
            have hmore : (more.dropWhile isSeparator).dropWhile isWhiteSpace <:+ more :=
              (List.dropWhile_suffix _).trans (List.dropWhile_suffix _)
            exact ⟨hmore.trans ((List.suffix_cons c more).trans hin),
              (Nat.lt_succ_of_le hmore.length_le).trans_le hin.length_le⟩
        · exact ih h
    · exact ih h

variable (tables : CaseTables)

/-- The loop: leaked words are stripped as long as there are any. -/
def stripLeaks (s : List Char) : Option (List Char) :=
  match _h : stripLeak (tables.lowercase s) s leakPrefixes with
  | none => none
  | some none => some s
  | some (some behind) => stripLeaks (trimBy isTrimChar behind)
termination_by s.length
decreasing_by exact (length_trimBy_le _ _).trans_lt (length_of_stripLeak _h).2

/-- Strip leading bracket/quote noise and known LLM-echoed prefixes from a candidate meeting title. None
where it panics. -/
def sanitizeMeetingTitle (raw : List Char) : Option (List Char) := do
  let s ← stripLeaks tables (trimBy isTrimChar (trim raw))
  if tables.lowercase s ∈ placeholderTitles then some [] else some s

variable {tables}

/-! ## The words -/

theorem leakPrefixes_spec : ∀ word ∈ leakPrefixes, (∀ c ∈ word, IsAscii c) ∧ 'k' ∉ word ∧
    word.getLast? ≠ some 'i' ∧ word ≠ [] ∧ ∀ c, word.head? = some c → isWhiteSpace c = false := by
  have hascii : ∀ word ∈ leakPrefixes, word.all (fun c => decide (IsAscii c)) = true := by
    decide +kernel
  have hhead : ∀ word ∈ leakPrefixes, word.head?.all (fun c => !isWhiteSpace c) = true := by
    decide +kernel
  have hends : ∀ word ∈ leakPrefixes, 'k' ∉ word ∧ word.getLast? ≠ some 'i' ∧ word ≠ [] := by
    decide +kernel
  intro word hword
  obtain ⟨hk, hi, hne⟩ := hends word hword
  refine ⟨fun c hc => ?_, hk, hi, hne, fun c hc => ?_⟩
  · exact of_decide_eq_true (List.all_eq_true.mp (hascii word hword) c hc)
  · simpa [hc] using hhead word hword

theorem isWhiteSpace_toLower {c : Char} (h : IsAscii c) : isWhiteSpace c.toLower = isWhiteSpace c :=
  IsAscii.of_forall (p := fun c => isWhiteSpace c.toLower = isWhiteSpace c) (by decide) h

/-- **No slice is inside of a character**, and a title with a word in front does not start with white
space. -/
theorem stripLeak_cases (tables : CaseTables) (s : List Char) {words : List (List Char)}
    (hwords : words ⊆ leakPrefixes) :
    stripLeak (tables.lowercase s) s words = some none ∨
    ∃ behind, stripLeak (tables.lowercase s) s words = some (some behind) ∧
      ∀ c, s.head? = some c → isWhiteSpace c = false := by
  induction words with
  | nil => exact .inl rfl
  | cons word words ih =>
    obtain ⟨hword, hrest⟩ := List.cons_subset.mp hwords
    have hmore := ih hrest
    rw [stripLeak]
    split
    · next hstart =>
      obtain ⟨hascii, hk, hi, hne, hwhite⟩ := leakPrefixes_spec word hword
      obtain ⟨front, rest, rfl, hfront, hall⟩ := CaseTables.exists_ascii_prefix hascii hk hi hstart
      have hlen : len word = len front := by
        rw [len_of_ascii hascii, len_of_ascii hall, ← hfront, List.length_map]
      have hslice : sliceAt? (front ++ rest) (len word) (len (front ++ rest)) = some rest := by
        have hcut : sliceAt? (front ++ rest) (len ((front ++ rest).take front.length))
            (len ((front ++ rest).take (front ++ rest).length)) = _ :=
          sliceAt?_eq_some (by simp) le_rfl
        rw [List.take_left, List.take_length, List.drop_left] at hcut
        rw [hlen, hcut]
      rw [hslice]
      simp only
      split
      · refine .inr ⟨_, rfl, fun c hc => ?_⟩
        cases front with
        | nil => exact absurd hfront.symm hne
        | cons e front =>
          obtain rfl : e = c := Option.some.inj hc
          rw [← isWhiteSpace_toLower (hall e List.mem_cons_self)]
          exact hwhite _ (by rw [← hfront]; rfl)
      · exact hmore
    · exact hmore

/-! ## What is left of a title -/

/-- What is left of a title before one of its trims: the title, and what is behind each leaked word. -/
inductive Left (tables : CaseTables) (raw : List Char) : List Char → Prop
  | first : Left tables raw (trim raw)
  | next {t behind : List Char} : Left tables raw t →
      stripLeak (tables.lowercase (trimBy isTrimChar t)) (trimBy isTrimChar t) leakPrefixes =
        some (some behind) → Left tables raw behind

/-- No trim stops at white space. -/
structure Settles (tables : CaseTables) (raw : List Char) : Prop where
  /-- none at the start -/
  starts : ∀ t, Left tables raw t → ∀ c, (t.dropWhile isTrimChar).head? = some c →
    isWhiteSpace c = false
  /-- nor the first one at the end, unless all of the title is leaked -/
  ends : (∀ c, ((trim raw).rdropWhile isTrimChar).getLast? = some c → isWhiteSpace c = false) ∨
    Left tables raw []

theorem stripLeaks_of_none {s : List Char}
    (h : stripLeak (tables.lowercase s) s leakPrefixes = some none) :
    stripLeaks tables s = some s := by
  rw [stripLeaks]
  split <;> simp_all

theorem stripLeaks_of_some {s behind : List Char}
    (h : stripLeak (tables.lowercase s) s leakPrefixes = some (some behind)) :
    stripLeaks tables s = stripLeaks tables (trimBy isTrimChar behind) := by
  rw [stripLeaks]
  split <;> simp_all

variable {raw t : List Char}

/-- The loop can be entered anywhere. -/
theorem Left.stripLeaks_eq (h : Left tables raw t) :
    stripLeaks tables (trimBy isTrimChar t) = stripLeaks tables (trimBy isTrimChar (trim raw)) := by
  induction h with
  | first => rfl
  | next _ hbehind ih => rw [← ih, stripLeaks_of_some hbehind]

/-- The loop ends with something that is left, and has no leaked word. -/
theorem Left.exists_stripLeaks (h : Left tables raw t) : ∃ t', Left tables raw t' ∧
    stripLeak (tables.lowercase (trimBy isTrimChar t')) (trimBy isTrimChar t') leakPrefixes =
      some none ∧
    stripLeaks tables (trimBy isTrimChar t) = some (trimBy isTrimChar t') := by
  induction hn : t.length using Nat.strong_induction_on generalizing t with
  | _ n ih =>
    rcases stripLeak_cases tables (trimBy isTrimChar t)
      (List.Subset.refl leakPrefixes) with hnone | ⟨behind, hbehind, -⟩
    · exact ⟨t, h, hnone, stripLeaks_of_none hnone⟩
    · have hlt := (length_of_stripLeak hbehind).2.trans_le (length_trimBy_le isTrimChar t)
      obtain ⟨t', hleft, hnone, heq⟩ := ih _ (hn ▸ hlt) (h.next hbehind) rfl
      exact ⟨t', hleft, hnone, by rw [stripLeaks_of_some hbehind, heq]⟩

theorem Left.length_le (h : Left tables raw t) :
    (trimBy isTrimChar t).length ≤ (trimBy isTrimChar (trim raw)).length := by
  induction h with
  | first => exact le_rfl
  | next _ hbehind ih =>
    exact (length_trimBy_le _ _).trans ((length_of_stripLeak hbehind).2.le.trans ih)

/-- What is left ends as the title does, or is nothing. -/
theorem Left.eq_nil_or (h : Left tables raw t) {front : List Char} {d : Char}
    (hraw : (trim raw).rdropWhile isTrimChar = front ++ [d]) :
    t = [] ∨ ∃ front', trimBy isTrimChar t = front' ++ [d] := by
  have hd : isTrimChar d = false := by
    have hne : (trim raw).rdropWhile isTrimChar ≠ [] := by simp [hraw]
    have hnot := List.rdropWhile_last_not isTrimChar (trim raw) hne
    simpa [hraw] using hnot
  induction h with
  | first =>
    have hsplit : _ = trim raw := List.rdropWhile_append_rtakeWhile (p := isTrimChar)
    rw [hraw, List.append_assoc] at hsplit
    rw [← hsplit]
    exact .inr (exists_trimBy_eq hd fun c hc => List.mem_rtakeWhile_imp hc)
  | @next t behind _ hbehind ih =>
    obtain ⟨hin, hlt⟩ := length_of_stripLeak hbehind
    rcases ih with rfl | ⟨front', hfront⟩
    · exact absurd hlt (Nat.not_lt_zero _)
    · rw [hfront] at hin
      rcases behind.eq_nil_or_concat with rfl | ⟨more, e, rfl⟩
      · exact .inl rfl
      · obtain ⟨before, hbefore⟩ := hin
        rw [List.concat_eq_append, ← List.append_assoc] at hbefore
        obtain rfl : e = d := List.singleton_inj.mp (List.append_inj' hbefore rfl).2
        rw [List.concat_eq_append]
        exact .inr (exists_trimBy_eq hd (by simp))

/-! ## Cleaning a title again -/

theorem stripLeaks_nil : stripLeaks tables [] = some [] := by
  rcases stripLeak_cases tables [] (List.Subset.refl leakPrefixes) with
    hnone | ⟨behind, hbehind, -⟩
  · exact stripLeaks_of_none hnone
  · exact absurd (length_of_stripLeak hbehind).2 (Nat.not_lt_zero _)

/-- What the loop ends with is trimmed of white space exactly where the title settles. -/
theorem settles_iff {r : List Char} (h : stripLeaks tables (trimBy isTrimChar (trim raw)) = some r) :
    Settles tables raw ↔ trim r = r := by
  obtain ⟨t', hleft, hnone, heq⟩ := (Left.first : Left tables raw (trim raw)).exists_stripLeaks
  obtain rfl := Option.some.inj (h.symm.trans heq)
  rw [trim_eq_trimBy, trimBy_eq_self_iff]
  refine ⟨fun hsettles => ⟨fun c hc => ?_, fun c hc => ?_⟩, fun ⟨hhead, hlast⟩ => ⟨?_, ?_⟩⟩
  · rw [head?_trimBy] at hc
    exact hsettles.starts t' hleft c hc
  · rcases ((trim raw).rdropWhile isTrimChar).eq_nil_or_concat with hnil | ⟨front, d, hraw⟩
    · -- nothing but brackets: nothing is left
      have hall := List.rdropWhile_eq_nil_iff.mp hnil
      have hdrop : (trim raw).dropWhile isTrimChar = [] := List.dropWhile_eq_nil_iff.mpr hall
      have hle := hleft.length_le
      rw [trimBy, trimBy, hdrop, List.rdropWhile_nil, ← trimBy] at hle
      rw [List.length_eq_zero_iff.mp (Nat.le_zero.mp hle)] at hc
      cases hc
    · rw [List.concat_eq_append] at hraw
      rcases hsettles.ends with hends | hall
      · rcases hleft.eq_nil_or hraw with rfl | ⟨front', hfront⟩
        · cases hc
        · rw [hfront, List.getLast?_concat] at hc
          obtain rfl := Option.some.inj hc
          exact hends d (by rw [hraw, List.getLast?_concat])
      · -- the loop comes to where nothing is left
        have hr := hall.stripLeaks_eq
        rw [h, show trimBy isTrimChar [] = [] from rfl, stripLeaks_nil] at hr
        rw [← Option.some.inj hr] at hc
        cases hc
  · intro t ht c hc
    rw [← head?_trimBy] at hc
    rcases stripLeak_cases tables (trimBy isTrimChar t)
      (List.Subset.refl leakPrefixes) with hnone | ⟨behind, -, hwhite⟩
    · -- the loop ends here
      have hr := ht.stripLeaks_eq
      rw [stripLeaks_of_none hnone, h] at hr
      exact hhead c (Option.some.inj hr ▸ hc)
    · exact hwhite c hc
  · rcases ((trim raw).rdropWhile isTrimChar).eq_nil_or_concat with hnil | ⟨front, d, hraw⟩
    · exact .inl fun c hc => by simp [hnil] at hc
    · rw [List.concat_eq_append] at hraw
      rcases hleft.eq_nil_or hraw with rfl | ⟨front', hfront⟩
      · exact .inr hleft
      · refine .inl fun c hc => ?_
        rw [hraw, List.getLast?_concat] at hc
        exact hlast c (by rw [hfront, List.getLast?_concat, hc])

/-- A placeholder has no white space but spaces. -/
theorem eq_space_of_placeholder {r : List Char} (h : tables.lowercase r ∈ placeholderTitles) {c : Char}
    (hc : c ∈ r) (hwhite : isWhiteSpace c = true) : c = ' ' := by
  have hall : ∀ title ∈ placeholderTitles, title.all (fun d =>
      decide (IsAscii d ∧ d ≠ 'k' ∧ (isWhiteSpace d = true → d = ' '))) = true := by
    decide +kernel
  have hplain : ∀ title ∈ placeholderTitles, ∀ d ∈ title, IsAscii d ∧
      d ≠ 'k' ∧ (isWhiteSpace d = true → d = ' ') :=
    fun title htitle d hd => of_decide_eq_true (List.all_eq_true.mp (hall title htitle) d hd)
  obtain ⟨before, after, hsubset⟩ := CaseTables.exists_lowerAt_subset tables hc []
  by_cases hascii : IsAscii c
  · rw [CaseTables.lowerAt_of_ascii hascii] at hsubset
    have hspace := (hplain _ h _ (hsubset (List.mem_singleton_self _))).2.2
      (by rw [isWhiteSpace_toLower hascii, hwhite])
    exact IsAscii.of_forall (p := fun c => c.toLower = ' ' → c = ' ') (by decide) hascii hspace
  · obtain ⟨d, more, hlower⟩ :=
      List.exists_cons_of_ne_nil (CaseTables.lowerAt_ne_nil tables before c after)
    rw [hlower] at hsubset
    obtain ⟨hd, hk, -⟩ := hplain _ h d (hsubset List.mem_cons_self)
    rcases CaseTables.lowerAt_of_not_ascii hascii hd hlower with ⟨rfl, -⟩ | ⟨-, rfl⟩
    · exact absurd rfl hk
    · exact absurd (hplain _ h '\u0307' (hsubset (by simp))).1 (by decide)

theorem sanitize_eq {r : List Char}
    (h : stripLeaks tables (trimBy isTrimChar (trim raw)) = some r) :
    sanitizeMeetingTitle tables raw =
      some (if tables.lowercase r ∈ placeholderTitles then [] else r) := by
  rw [sanitizeMeetingTitle, h, Option.bind_eq_bind, Option.bind_some]
  split <;> rfl

theorem length_sanitize_le {title : List Char} (h : sanitizeMeetingTitle tables raw = some title) :
    title.length ≤ (trim raw).length := by
  obtain ⟨t', hleft, -, heq⟩ := (Left.first : Left tables raw (trim raw)).exists_stripLeaks
  rw [sanitize_eq heq] at h
  obtain rfl := Option.some.inj h
  split
  · exact Nat.zero_le _
  · exact hleft.length_le.trans (length_trimBy_le _ _)

/-- **Cleaning a title does not panic, and cleaning it again changes nothing** exactly if no trim of it
stops at white space. -/
theorem idempotent_iff (tables : CaseTables) (raw : List Char) : ∃ title,
    sanitizeMeetingTitle tables raw = some title ∧
    (sanitizeMeetingTitle tables title = some title ↔ Settles tables raw) := by
  obtain ⟨t', hleft, hnone, heq⟩ := (Left.first : Left tables raw (trim raw)).exists_stripLeaks
  refine ⟨_, sanitize_eq heq, ?_⟩
  rw [settles_iff heq]
  split
  · next hplaceholder =>
    refine iff_of_true ?_ ?_
    · have hnil : sanitizeMeetingTitle tables [] = _ := sanitize_eq stripLeaks_nil
      rw [hnil]
      split <;> rfl
    · have hspace : ∀ c ∈ trimBy isTrimChar t', isTrimChar c = false → isWhiteSpace c = false :=
        fun c hc hkept => Bool.eq_false_iff.mpr fun hwhite => by
          rw [eq_space_of_placeholder hplaceholder hc hwhite] at hkept
          exact absurd hkept (by decide)
      rw [trim_eq_trimBy, trimBy_eq_self_iff]
      exact ⟨fun c hc => hspace c (List.mem_of_head? hc) (not_of_head?_trimBy hc),
        fun c hc => hspace c (List.mem_of_getLast? hc) (not_of_getLast?_trimBy hc)⟩
  · next hplain =>
    refine ⟨fun hagain => ?_, fun htrim => ?_⟩
    · have hle := length_sanitize_le hagain
      rw [trim_eq_trimBy] at hle ⊢
      exact trimBy_eq_of_length_le hle
    · have hstrip : stripLeaks tables (trimBy isTrimChar (trim (trimBy isTrimChar t'))) =
          some (trimBy isTrimChar t') := by
        rw [htrim, trimBy_trimBy]
        exact stripLeaks_of_none hnone
      rw [sanitize_eq hstrip, if_neg hplain]

/-- A tab behind a bracket. -/
def tabbed : List Char := ['[', '\t', 'F', 'o', 'o', ']']

/-- The tab is what the title starts with, until it is cleaned again. -/
theorem not_idempotent_tab : ∃ title, sanitizeMeetingTitle CaseTables.onlyAscii tabbed = some title ∧
    sanitizeMeetingTitle CaseTables.onlyAscii title ≠ some title := by
  have hfirst : sanitizeMeetingTitle CaseTables.onlyAscii tabbed = some ['\t', 'F', 'o', 'o'] := by
    rw [sanitize_eq (stripLeaks_of_none (by decide +kernel))]
    decide +kernel
  have hagain : sanitizeMeetingTitle CaseTables.onlyAscii ['\t', 'F', 'o', 'o'] =
      some ['F', 'o', 'o'] := by
    rw [sanitize_eq (stripLeaks_of_none (by decide +kernel))]
    decide +kernel
  exact ⟨_, hfirst, by rw [hagain]; decide⟩

end MeetingTitle

end MeetilyLocal
