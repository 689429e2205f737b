import MeetilyLocal.Library.Lowercase
import Mathlib.Data.List.Chain

/-!
# File names of exports

`slugify` of `export.rs`: the name of an exported file, from the title of the meeting. Letters and
digits are taken in lowercase, all else becomes single dashes, and the loop stops when it has 60
bytes.

It looks at the length only after it has taken a whole character, so the name can be longer; and the
dotted capital I leaves a combining dot. In all other cases the name is safe (`safeName_slugify_iff`).
-/

namespace MeetilyLocal

open Utf8

/-- What the standard library knows about letters and digits. -/
structure AlphanumericTables extends CaseTables where
  /-- `char::is_alphanumeric` -/
  isAlphanumeric : Char → Bool
  isAlphanumeric_of_ascii : ∀ c, IsAscii c → isAlphanumeric c = c.isAlphanum
  /-- a combining dot above -/
  isAlphanumeric_dot : isAlphanumeric '\u0307' = false
  /-- it is only the dotted capital I that has one in lowercase -/
  isAlphanumeric_toLowercase :
    ∀ c, isAlphanumeric c = true → c ≠ 'İ' → ∀ d ∈ toLowercase c, isAlphanumeric d = true

namespace Slugify

variable (tables : AlphanumericTables)

/-- One character: the slug, and whether it ends with a dash or is empty (`last_dash`). -/
def slugStep (s : List Char × Bool) (c : Char) : List Char × Bool :=
  if tables.isAlphanumeric c then (s.1 ++ tables.toLowercase c, false)
  else if s.2 then s
  else (s.1 ++ ['-'], true)

def slugLoop : List Char → List Char × Bool → List Char × Bool
  | [], s => s
  | c :: cs, s => if 60 ≤ len (slugStep tables s c).1 then slugStep tables s c
    else slugLoop cs (slugStep tables s c)

def slugify (title : List Char) : List Char :=
  let slug := trimBy (· == '-') (slugLoop tables title ([], true)).1
  if slug = [] then "meeting".toList else slug

/-- A lowercase letter or digit. -/
def IsLower (c : Char) : Prop := tables.isAlphanumeric c = true ∧ tables.toLowercase c = [c]

/-- Of two characters in a row one is not a dash. -/
def NotBothDashes (c d : Char) : Prop := c ≠ '-' ∨ d ≠ '-'

/-- A name for a file, of words with single dashes between them. -/
structure SafeName (name : List Char) : Prop where
  ne_nil : name ≠ []
  /-- it has at most 60 bytes -/
  len_le : len name ≤ 60
  /-- it is made of lowercase letters, digits and dashes -/
  made : ∀ c ∈ name, c = '-' ∨ IsLower tables c
  /-- it starts with no dash -/
  head : ∀ c ∈ name.head?, c ≠ '-'
  /-- it ends with no dash -/
  last : ∀ c ∈ name.getLast?, c ≠ '-'
  /-- no dash is doubled -/
  single : name.IsChain NotBothDashes

/-- The slug of a title, as if there were no limit. -/
def stem (title : List Char) : List Char := (title.foldl (slugStep tables) ([], true)).1

/-- Each letter or digit that is taken fits into what is left of the 60 bytes, and is no dotted
capital I. -/
def Fits (title : List Char) : Prop :=
  ∀ front c rest, title = front ++ c :: rest → tables.isAlphanumeric c = true →
    len (stem tables front) < 60 →
      c ≠ 'İ' ∧ len (stem tables front) + len (tables.toLowercase c) ≤ 60

variable {tables}

/-! ## Where the loop stops -/

section Loop

variable {title front rest : List Char} {s : List Char × Bool} {c : Char}

theorem slugStep_of_alphanumeric (hc : tables.isAlphanumeric c = true) :
    slugStep tables s c = (s.1 ++ tables.toLowercase c, false) := if_pos hc

theorem len_slugStep_le (hc : ¬tables.isAlphanumeric c = true) :
    len (slugStep tables s c).1 ≤ len s.1 + 1 := by
  rw [slugStep, if_neg hc]
  split
  · exact Nat.le_succ _
  · simp only [len_append]
    exact Nat.le_refl _

theorem isPrefix_slugStep (s : List Char × Bool) (c : Char) :
    s.1 <+: (slugStep tables s c).1 := by
  rw [slugStep]
  split_ifs
  · exact List.prefix_append _ _
  · exact List.prefix_rfl
  · exact List.prefix_append _ _

theorem isPrefix_foldl (title : List Char) (s : List Char × Bool) :
    s.1 <+: (title.foldl (slugStep tables) s).1 := by
  induction title generalizing s with
  | nil => exact List.prefix_rfl
  | cons c title ih => exact (isPrefix_slugStep s c).trans (ih _)

theorem isPrefix_stem_append (tables : AlphanumericTables) (front rest : List Char) :
    stem tables front <+: stem tables (front ++ rest) := by
  rw [stem, stem, List.foldl_append]
  exact isPrefix_foldl rest _

theorem stem_concat (hc : tables.isAlphanumeric c = true) :
    stem tables (front ++ [c]) = stem tables front ++ tables.toLowercase c := by
  rw [stem, List.foldl_concat, slugStep_of_alphanumeric hc, stem]

/-- The loop takes the characters up to the first one after which there are 60 bytes. -/
theorem exists_slugLoop (tables : AlphanumericTables) (title : List Char) (s : List Char × Bool) :
    ∃ front rest, title = front ++ rest ∧
      slugLoop tables title s = front.foldl (slugStep tables) s ∧
      (rest = [] ∨ 60 ≤ len (front.foldl (slugStep tables) s).1) ∧
      ∀ before c after, front = before ++ c :: after → before ≠ [] →
        len (before.foldl (slugStep tables) s).1 < 60 := by
  induction title generalizing s with
  | nil => exact ⟨[], [], rfl, rfl, .inl rfl, by simp⟩
  | cons c title ih =>
    rw [slugLoop]
    split
    next hfull =>
      refine ⟨[c], title, rfl, rfl, .inr hfull, ?_⟩
      intro before d after heq hne
      obtain ⟨e, before, rfl⟩ := List.exists_cons_of_ne_nil hne
      simp at heq
    next hroom =>
      obtain ⟨front, rest, rfl, hloop, hstop, hbefore⟩ := ih (slugStep tables s c)
      refine ⟨c :: front, rest, rfl, hloop, hstop, ?_⟩
      intro before d after heq hne
      obtain ⟨e, before, rfl⟩ := List.exists_cons_of_ne_nil hne
      obtain ⟨rfl, htail⟩ := List.cons_eq_cons.mp heq
      rcases List.eq_nil_or_concat before with rfl | ⟨_, _, rfl⟩
      · exact not_le.mp hroom
      · exact hbefore _ d after htail (by simp)

end Loop

/-! ## What it makes -/

section Shape

variable {title front rest name : List Char} {s : List Char × Bool} {c d : Char}

/-- No letter or digit becomes a dash. -/
theorem ne_dash_of_mem (hc : tables.isAlphanumeric c = true) (hd : d ∈ tables.toLowercase c) :
    d ≠ '-' := by
  rintro rfl
  by_cases hdotted : c = 'İ'
  · subst hdotted
    rw [tables.toLowercase_dotted] at hd
    revert hd
    decide
  · have halpha := tables.isAlphanumeric_toLowercase c hc hdotted _ hd
    rw [tables.isAlphanumeric_of_ascii _ (by decide)] at halpha
    revert halpha
    decide

theorem isLower_of_mem (hc : tables.isAlphanumeric c = true) (hdotted : c ≠ 'İ')
    (hd : d ∈ tables.toLowercase c) : IsLower tables d :=
  ⟨tables.isAlphanumeric_toLowercase c hc hdotted d hd, tables.toLowercase_of_mem c d hd⟩

/-- What the loop keeps so: it has no dash at the start and none twice, and remembers if there is one
at the end. -/
structure Dashed (s : List Char × Bool) : Prop where
  head : ∀ c ∈ s.1.head?, c ≠ '-'
  last : ∀ c ∈ s.1.getLast?, (c = '-' ↔ s.2 = true)
  nil : s.1 = [] → s.2 = true
  single : s.1.IsChain NotBothDashes

theorem isChain_of_forall_ne (h : ∀ c ∈ name, c ≠ '-') : name.IsChain NotBothDashes :=
  List.Pairwise.isChain (List.pairwise_of_forall_mem_list fun c hc _ _ => .inl (h c hc))

theorem dashed_slugStep (h : Dashed s) (c : Char) : Dashed (slugStep tables s c) := by
  rw [slugStep]
  split_ifs with hc hlast
  · have hne := tables.toLowercase_ne_nil c
    have hdash : ∀ d ∈ tables.toLowercase c, d ≠ '-' := fun d => ne_dash_of_mem hc
    refine ⟨?_, ?_, ?_, ?_⟩
    · intro d hd
      rcases hs : s.1 with _ | ⟨e, more⟩
      · rw [hs, List.nil_append] at hd
        exact hdash d (List.mem_of_mem_head? hd)
      · exact h.head d (by simpa [hs] using hd)
    · intro d hd
      rw [List.getLast?_append_of_ne_nil _ hne] at hd
      simpa using hdash d (List.mem_of_mem_getLast? hd)
    · intro hnil
      exact absurd (List.append_eq_nil_iff.mp hnil).2 hne
    · refine h.single.append (isChain_of_forall_ne hdash) ?_
      intro _ _ d hd
      exact .inr (hdash d (List.mem_of_mem_head? hd))
  · exact h
  · obtain ⟨front, e, hs⟩ := List.eq_nil_or_concat s.1 |>.resolve_left fun hnil => hlast (h.nil hnil)
    have he : e ≠ '-' := fun heq => hlast ((h.last e (by simp [hs])).mp heq)
    refine ⟨?_, by simp, by simp, ?_⟩
    · intro d hd
      refine h.head d ?_
      rw [hs, List.concat_eq_append] at hd ⊢
      rwa [List.head?_append_of_ne_nil _ (by simp)] at hd
    · refine h.single.append (by simp) ?_
      intro d hd _ _
      obtain rfl : e = d := by simpa [hs] using hd
      exact .inl he

theorem dashed_foldl (title : List Char) (h : Dashed s) :
    Dashed (title.foldl (slugStep tables) s) := by
  induction title generalizing s with
  | nil => exact h
  | cons c title ih => exact ih (dashed_slugStep h c)

theorem dashed_nil : Dashed ([], true) := ⟨by simp, by simp, by simp, by simp⟩

/-- Trimming takes the dash off the end, if there is one. -/
theorem exists_trim (h : Dashed s) :
    ∃ dash, s.1 = trimBy (· == '-') s.1 ++ dash ∧ dash <+: ['-'] := by
  have hstart : s.1.dropWhile (· == '-') = s.1 := by
    rcases hs : s.1 with _ | ⟨c, more⟩
    · rfl
    · exact List.dropWhile_cons_of_neg (by simpa using h.head c (by simp [hs]))
  rw [trimBy, hstart]
  rcases List.eq_nil_or_concat' s.1 with hs | ⟨front, e, hs⟩ <;> rw [hs]
  · exact ⟨[], by simp, List.nil_prefix⟩
  by_cases he : e = '-'
  · subst he
    have hfront : front.rdropWhile (· == '-') = front := by
      rw [List.rdropWhile_eq_self_iff]
      intro hne heq
      have hsingle := h.single
      rw [hs, List.isChain_append] at hsingle
      have hboth := hsingle.2.2 _ (List.getLast_mem_getLast? hne) '-' rfl
      exact hboth.elim (absurd (by simpa using heq)) (absurd rfl)
    rw [List.rdropWhile_concat_pos _ _ _ (by simp), hfront]
    exact ⟨['-'], rfl, List.prefix_rfl⟩
  · rw [List.rdropWhile_concat_neg _ _ _ (by simpa using he)]
    exact ⟨[], by simp, List.nil_prefix⟩

/-- What is not a dash stays when dashes are trimmed. -/
theorem mem_trim (h : Dashed s) (hc : c ∈ s.1) (hdash : c ≠ '-') : c ∈ trimBy (· == '-') s.1 := by
  obtain ⟨dash, hs, hbegins⟩ := exists_trim h
  rw [hs, List.mem_append] at hc
  refine hc.resolve_right ?_
  intro hmem
  exact hdash (by simpa using hbegins.subset hmem)

/-- All that is in the stem comes from a letter or digit. -/
theorem mem_foldl (title : List Char) (s : List Char × Bool)
    (hd : d ∈ (title.foldl (slugStep tables) s).1) :
    d ∈ s.1 ∨ d = '-' ∨ ∃ front c rest, title = front ++ c :: rest ∧
      tables.isAlphanumeric c = true ∧ d ∈ tables.toLowercase c := by
  induction title generalizing s with
  | nil => exact .inl hd
  | cons c title ih =>
    rcases ih _ hd with hd | hd | ⟨front, e, rest, rfl, he, hd⟩
    · rw [slugStep] at hd
      split_ifs at hd with hc
      · rcases List.mem_append.mp hd with hd | hd
        · exact .inl hd
        · exact .inr (.inr ⟨[], c, title, rfl, hc, hd⟩)
      · exact .inl hd
      · rcases List.mem_append.mp hd with hd | hd
        · exact .inl hd
        · exact .inr (.inl (List.mem_singleton.mp hd))
    · exact .inr (.inl hd)
    · exact .inr (.inr ⟨c :: front, e, rest, rfl, he, hd⟩)

end Shape

/-! ## When the name is safe -/

section Safe

variable {title front rest name : List Char} {c : Char}

theorem safeName_meeting : SafeName tables "meeting".toList := by
  have hall : ("meeting".toList.all fun c =>
      decide (IsAscii c ∧ c.isAlphanum = true ∧ c.toLower = c)) = true := by decide
  have hlower : ∀ c ∈ "meeting".toList, IsAscii c ∧ c.isAlphanum = true ∧ c.toLower = c :=
    fun c hc => of_decide_eq_true (List.all_eq_true.mp hall c hc)
  have hdash : ∀ c ∈ "meeting".toList, c ≠ '-' := by
    intro c hc
    rintro rfl
    exact absurd (hlower _ hc).2.1 (by decide)
  refine ⟨by decide, by decide, ?_, ?_, ?_, isChain_of_forall_ne hdash⟩
  · intro c hc
    obtain ⟨hascii, halpha, hlow⟩ := hlower c hc
    refine .inr ⟨?_, ?_⟩
    · rw [tables.isAlphanumeric_of_ascii c hascii, halpha]
    · rw [tables.toLowercase_of_ascii c hascii, hlow]
  · intro c hc
    exact hdash c (List.mem_of_mem_head? hc)
  · intro c hc
    exact hdash c (List.mem_of_mem_getLast? hc)

/-- What the loop has when it stops: the stem of the characters that it took. -/
theorem exists_slugify (tables : AlphanumericTables) (title : List Char) :
    ∃ front rest, title = front ++ rest ∧
      slugify tables title = (if trimBy (· == '-') (stem tables front) = [] then "meeting".toList
        else trimBy (· == '-') (stem tables front)) ∧
      (rest = [] ∨ 60 ≤ len (stem tables front)) ∧
      ∀ before c after, front = before ++ c :: after → len (stem tables before) < 60 := by
  obtain ⟨front, rest, htitle, hloop, hstop, hbefore⟩ :=
    exists_slugLoop tables title ([], true)
  refine ⟨front, rest, htitle, ?_, hstop, ?_⟩
  · rw [slugify, hloop, stem]
  · intro before c after heq
    by_cases hnil : before = []
    · subst hnil
      exact Nat.zero_lt_succ 59
    · exact hbefore before c after heq hnil

theorem len_stem_le (hfits : Fits tables title) (htitle : title = front ++ rest)
    (hbefore : ∀ before c after, front = before ++ c :: after → len (stem tables before) < 60) :
    len (stem tables front) ≤ 60 := by
  rcases List.eq_nil_or_concat' front with rfl | ⟨before, c, rfl⟩
  · exact Nat.zero_le 60
  have hroom := hbefore before c [] rfl
  by_cases hc : tables.isAlphanumeric c = true
  · rw [stem_concat hc, len_append]
    exact (hfits before c rest (by simp [htitle]) hc hroom).2
  · rw [stem, List.foldl_concat]
    have hle := len_slugStep_le (s := before.foldl (slugStep tables) ([], true)) hc
    rw [stem] at hroom
    omega

theorem safeName_slugify (hfits : Fits tables title) : SafeName tables (slugify tables title) := by
  obtain ⟨front, rest, htitle, hslug, -, hbefore⟩ := exists_slugify tables title
  rw [hslug]
  split
  · exact safeName_meeting
  next hne =>
    have hdashed : Dashed (front.foldl (slugStep tables) ([], true)) := dashed_foldl front dashed_nil
    obtain ⟨dash, hstem, -⟩ := exists_trim hdashed
    have hbegins : trimBy (· == '-') (stem tables front) <+: stem tables front := ⟨dash, hstem.symm⟩
    refine ⟨hne, ?_, ?_, ?_, ?_, ?_⟩
    · exact (len_le_of_isPrefix hbegins).trans (len_stem_le hfits htitle hbefore)
    · intro d hd
      rcases mem_foldl front _ (hbegins.subset hd) with hd | hd | ⟨before, c, after, heq, hc, hd⟩
      · cases hd
      · exact .inl hd
      · have hroom := hbefore before c after heq
        have hin := hfits before c (after ++ rest) (by simp [htitle, heq]) hc hroom
        exact .inr (isLower_of_mem hc hin.1 hd)
    · intro c hc
      simpa using not_of_head?_trimBy hc
    · intro c hc
      simpa using not_of_getLast?_trimBy hc
    · have hsingle := hdashed.single
      rw [hstem] at hsingle
      exact hsingle.left_of_append

/-- A letter or digit that comes while there is room is taken. -/
theorem exists_taken {front' rest' : List Char} (htitle : front ++ rest = front' ++ c :: rest')
    (hstop : rest = [] ∨ 60 ≤ len (stem tables front)) (hroom : len (stem tables front') < 60) :
    ∃ after, front = front' ++ c :: after := by
  have hnot : ∀ more, front' = front ++ more → rest ≠ [] → False := by
    rintro more rfl hrest
    have hle := len_le_of_isPrefix (isPrefix_stem_append tables front more)
    have hfull := hstop.resolve_left hrest
    omega
  rcases List.append_eq_append_iff.mp htitle with ⟨more, hfront, hrest⟩ | ⟨more, hfront, hrest⟩
  · exact (hnot more hfront (by simp [hrest])).elim
  · cases more with
    | nil => exact (hnot [] (by simp [hfront]) (by rintro rfl; simp at hrest)).elim
    | cons d after =>
      obtain ⟨rfl, -⟩ := List.cons_eq_cons.mp hrest
      exact ⟨after, hfront⟩

theorem fits_of_safeName (h : SafeName tables (slugify tables title)) : Fits tables title := by
  obtain ⟨front, rest, htitle, hslug, hstop, hbefore⟩ := exists_slugify tables title
  intro front' c rest' htitle' hc hroom
  obtain ⟨after, hfront⟩ := exists_taken (htitle.symm.trans htitle') hstop hroom
  have hdashed : Dashed (front.foldl (slugStep tables) ([], true)) := dashed_foldl front dashed_nil
  have hbegins : stem tables front' ++ tables.toLowercase c <+: stem tables front := by
    have htaken := isPrefix_stem_append tables (front' ++ [c]) after
    rwa [List.append_assoc, List.singleton_append, ← hfront, stem_concat hc] at htaken
  -- what the character becomes is in the name
  have hmem : ∀ d ∈ tables.toLowercase c, d ∈ trimBy (· == '-') (stem tables front) := by
    intro d hd
    exact mem_trim hdashed (hbegins.subset (List.mem_append_right _ hd)) (ne_dash_of_mem hc hd)
  have hne : trimBy (· == '-') (stem tables front) ≠ [] := by
    obtain ⟨d, hd⟩ := List.exists_mem_of_ne_nil _ (tables.toLowercase_ne_nil c)
    exact List.ne_nil_of_mem (hmem d hd)
  rw [hslug, if_neg hne] at h
  constructor
  · rintro rfl
    have hdot := h.made '\u0307' (hmem _ (by simp [tables.toLowercase_dotted]))
    have hlower := (hdot.resolve_left (by decide)).1
    rw [tables.isAlphanumeric_dot] at hlower
    cases hlower
  · by_contra hlong
    -- the loop stops there, and there is no dash to trim
    have hafter : after = [] := by
      cases after with
      | nil => rfl
      | cons d after =>
        have hlt := hbefore (front' ++ [c]) d after (by simp [hfront])
        rw [stem_concat hc, len_append] at hlt
        omega
    subst hafter
    have htrim : trimBy (· == '-') (stem tables front) = stem tables front := by
      rw [trimBy_eq_self_iff]
      constructor
      · intro d hd
        simpa using hdashed.head d hd
      · intro d hd
        have hlast := hdashed.last d hd
        rw [hfront, List.foldl_concat, slugStep_of_alphanumeric hc] at hlast
        simpa using hlast
    have hle := h.len_le
    rw [htrim, hfront, stem_concat hc, len_append] at hle
    exact hlong hle

/-- **Safe names.** The name is safe if and only if each letter or digit that is taken fits into what
is left of the 60 bytes, and is no dotted capital I. -/
theorem safeName_slugify_iff (tables : AlphanumericTables) (title : List Char) :
    SafeName tables (slugify tables title) ↔ Fits tables title :=
  ⟨fits_of_safeName, safeName_slugify⟩

/-- The tables, as far as the letters and digits of ASCII and what becomes some in lowercase. -/
def fewLetters : AlphanumericTables where
  toCaseTables := .onlyAscii
  isAlphanumeric c := if IsAscii c then c.isAlphanum else decide (c = 'İ' ∨ c = 'Σ' ∨ c = 'σ')
  isAlphanumeric_of_ascii c hc := if_pos hc
  isAlphanumeric_dot := by decide
  isAlphanumeric_toLowercase c hc hdotted d hd := by
    by_cases hascii : IsAscii c
    · rw [if_pos hascii] at hc
      rw [CaseTables.onlyAscii.toLowercase_of_ascii c hascii, List.mem_singleton] at hd
      rw [hd, if_pos hascii.toLower]
      revert hc
      exact IsAscii.of_forall (p := fun c => c.isAlphanum = true → c.toLower.isAlphanum = true)
        (by decide) hascii
    · rw [if_neg hascii, decide_eq_true_eq] at hc
      rcases hc.resolve_left hdotted with rfl | rfl
      · rw [List.mem_singleton.mp hd]
        decide
      · rw [List.mem_singleton.mp hd]
        decide

/-- After 59 letters comes one of two bytes: the name has 61. -/
theorem not_safeName_sigma : ¬∀ title, SafeName fewLetters (slugify fewLetters title) := by
  intro h
  have hle := (h (List.replicate 59 'a' ++ ['Σ'])).len_le
  revert hle
  decide

example : slugify fewLetters "  Q3 // Budget: review!  ".toList = "q3-budget-review".toList := by decide

end Safe

end Slugify

end MeetilyLocal
