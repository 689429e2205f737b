import MeetilyLocal.Library.Lowercase

/-!
# The context of a match

The embedding of `get_match_context` (`database/repositories/transcript.rs`), which shows what stands around
the first occurrence of a query in a transcript. It looks for the lowercase of the one in the lowercase of
the other, and then cuts the transcript itself, a hundred bytes before that position and behind it.

A position in the lowercase is in general none of the transcript. `CaseTables.sourceStart` and
`CaseTables.sourceStop` are where the occurrence is in the transcript, and the context is as it should be
exactly if the bytes that are counted from the one to the other are not too many and end between two
characters (`shows_iff`). Among characters of ASCII they do (`shows_of_ascii`), but one character of two
bytes is enough for a panic (`not_shows_accent`).
-/

namespace MeetilyLocal

namespace TranscriptsRepository

open Utf8

variable (tables : CaseTables)

/-- `match_index`: the query is looked for in the lowercase. -/
def matchIndex (transcript query : List Char) : Option ℕ :=
  find (tables.lowercase query) (tables.lowercase transcript)

/-- `start_index` -/
def startIndex (k : ℕ) : ℕ := k - 100

/-- `end_index` -/
def endIndex (transcript query : List Char) (k : ℕ) : ℕ := min (k + len query + 100) (len transcript)

/-- Helper function to extract a snippet of text around the first match of a query. None where it
panics. -/
def getMatchContext (transcript query : List Char) : Option (List Char) :=
  match matchIndex tables transcript query with
  | some k =>
    (sliceAt? transcript (startIndex k) (endIndex transcript query k)).map fun context =>
      (if 0 < startIndex k then "...".toList else []) ++ context ++
        (if endIndex transcript query k < len transcript then "...".toList else [])
  | none => some (transcript.take 200)

/-- Where in the transcript the occurrence starts that is at `k` in its lowercase. -/
def matchStart (transcript : List Char) (k : ℕ) : ℕ := tables.sourceStart [] transcript k

/-- Where it stops. -/
def matchStop (transcript query : List Char) (k : ℕ) : ℕ :=
  tables.sourceStop [] transcript (k + len (tables.lowercase query))

/-- The context of a match is as it should be. -/
structure Shows (transcript query : List Char) : Prop where
  /-- no slice is inside of a character or out of range -/
  returns : ∃ context, getMatchContext tables transcript query = some context
  /-- the occurrence is in what is shown -/
  contains : ∀ k, matchIndex tables transcript query = some k →
    startIndex k ≤ matchStart tables transcript k ∧
      matchStop tables transcript query k ≤ endIndex transcript query k

/-- The hundred bytes before and behind an occurrence. -/
structure Reaches (transcript query : List Char) (k : ℕ) : Prop where
  /-- they start with the transcript, or between two characters -/
  before : k ≤ 100 ∨ IsCharBoundary (encode transcript) (k - 100)
  /-- they stop with the transcript, or between two characters -/
  behind : len transcript ≤ k + len query + 100 ∨
    IsCharBoundary (encode transcript) (k + len query + 100)
  /-- they start before the occurrence -/
  start : k ≤ matchStart tables transcript k + 100
  /-- they stop behind it -/
  stop : matchStop tables transcript query k ≤ k + len query + 100

variable {tables} {transcript query : List Char}

theorem isCharBoundary_zero (text : List Char) : IsCharBoundary (encode text) 0 :=
  isCharBoundary_len_take text 0

theorem isCharBoundary_len (text : List Char) : IsCharBoundary (encode text) (len text) := .inl rfl

theorem sliceAt?_isSome_iff {text : List Char} {lo hi : ℕ} : (sliceAt? text lo hi).isSome ↔
    lo ≤ hi ∧ IsCharBoundary (encode text) lo ∧ IsCharBoundary (encode text) hi := by
  rw [sliceAt?]
  split <;> simp_all

/-- What the occurrence is: its lowercase, in the transcript, has the lowercase of the query. -/
theorem exists_occurrence {k : ℕ} (h : matchIndex tables transcript query = some k) :
    ∃ before occurrence rest, transcript = before ++ occurrence ++ rest ∧
      len before = matchStart tables transcript k ∧
      len (before ++ occurrence) = matchStop tables transcript query k ∧
      tables.lowercase query <:+: tables.lowercaseIn before.reverse occurrence rest := by
  obtain ⟨front, hfront, rfl⟩ := exists_of_find h
  exact CaseTables.exists_source hfront

/-- The context of a query that is found. -/
theorem getMatchContext_isSome_iff {k : ℕ} (h : matchIndex tables transcript query = some k) :
    (∃ context, getMatchContext tables transcript query = some context) ↔
      startIndex k ≤ endIndex transcript query k ∧
      IsCharBoundary (encode transcript) (startIndex k) ∧
      IsCharBoundary (encode transcript) (endIndex transcript query k) := by
  rw [getMatchContext, h, ← Option.isSome_iff_exists, Option.isSome_map, sliceAt?_isSome_iff]

theorem startIndex_boundary_iff (transcript : List Char) (k : ℕ) :
    IsCharBoundary (encode transcript) (startIndex k) ↔
      k ≤ 100 ∨ IsCharBoundary (encode transcript) (k - 100) := by
  refine ⟨.inr, fun h => ?_⟩
  rcases h with hle | hboundary
  · rw [startIndex, Nat.sub_eq_zero_of_le hle]
    exact isCharBoundary_zero transcript
  · exact hboundary

theorem endIndex_boundary_iff (transcript query : List Char) (k : ℕ) :
    IsCharBoundary (encode transcript) (endIndex transcript query k) ↔
      len transcript ≤ k + len query + 100 ∨
        IsCharBoundary (encode transcript) (k + len query + 100) := by
  rw [endIndex]
  rcases le_total (len transcript) (k + len query + 100) with hle | hle
  · rw [Nat.min_eq_right hle]
    exact ⟨fun _ => .inl hle, fun _ => isCharBoundary_len transcript⟩
  · rw [Nat.min_eq_left hle]
    refine ⟨.inr, fun h => h.elim (fun hge => ?_) id⟩
    rw [← hge.antisymm hle]
    exact isCharBoundary_len transcript

/-- Bytes that reach over the occurrence, from one place between two characters to another one. -/
theorem shows_of_reaches
    (h : ∀ k, matchIndex tables transcript query = some k → Reaches tables transcript query k) :
    Shows tables transcript query := by
  refine ⟨?_, fun k hk => ?_⟩
  · rcases hfind : matchIndex tables transcript query with _ | k
    · exact ⟨transcript.take 200, by rw [getMatchContext, hfind]⟩
    · obtain ⟨hbefore, hbehind, hstart, hstop⟩ := h k hfind
      -- the occurrence is between the two positions
      have hin : matchStart tables transcript k ≤ matchStop tables transcript query k :=
        CaseTables.sourceStart_le_sourceStop [] transcript (Nat.le_add_right k _)
      have hle : matchStop tables transcript query k ≤ len transcript :=
        CaseTables.sourceStop_le [] transcript _
      refine (getMatchContext_isSome_iff hfind).mpr ⟨?_,
        (startIndex_boundary_iff transcript k).mpr hbefore,
        (endIndex_boundary_iff transcript query k).mpr hbehind⟩
      exact (Nat.sub_le_iff_le_add.mpr hstart).trans (hin.trans (le_min hstop hle))
  · obtain ⟨-, -, hstart, hstop⟩ := h k hk
    exact ⟨Nat.sub_le_iff_le_add.mpr hstart, le_min hstop (CaseTables.sourceStop_le [] transcript _)⟩

/-- **The context of a match** does not panic and shows the occurrence, exactly if the bytes around
it reach over it from one place between two characters to another one. -/
theorem shows_iff (tables : CaseTables) (transcript query : List Char) :
    Shows tables transcript query ↔
      ∀ k, matchIndex tables transcript query = some k → Reaches tables transcript query k := by
  refine ⟨fun hshows k hk => ?_, shows_of_reaches⟩
  obtain ⟨-, hlo, hhi⟩ := (getMatchContext_isSome_iff hk).mp hshows.returns
  obtain ⟨hstart, hstop⟩ := hshows.contains k hk
  exact ⟨(startIndex_boundary_iff transcript k).mp hlo,
    (endIndex_boundary_iff transcript query k).mp hhi, Nat.sub_le_iff_le_add.mp hstart,
    hstop.trans (Nat.min_le_left _ _)⟩

/-- In ASCII it is always so. -/
theorem shows_of_ascii (htranscript : ∀ c ∈ transcript, IsAscii c) (hquery : ∀ c ∈ query, IsAscii c) :
    Shows tables transcript query := by
  have hlower : len (tables.lowercase query) = len query := CaseTables.len_lowercase_of_ascii tables hquery
  refine shows_of_reaches fun k hk => ?_
  obtain ⟨front, hfront, hlen⟩ := exists_of_find hk
  have hin := len_le_of_isPrefix hfront
  rw [len_append, hlen, hlower, CaseTables.len_lowercase_of_ascii tables htranscript] at hin
  refine ⟨.inr (isCharBoundary_of_ascii htranscript (by omega)), ?_, ?_, ?_⟩
  · rcases le_total (len transcript) (k + len query + 100) with hle | hle
    · exact .inl hle
    · exact .inr (isCharBoundary_of_ascii htranscript hle)
  · rw [matchStart, CaseTables.sourceStart_of_ascii htranscript (by omega)]
    omega
  · rw [matchStop, hlower, CaseTables.sourceStop_of_ascii htranscript (by omega)]
    omega

/-- A letter that is found a hundred bytes behind the middle of a character. -/
def accented : List Char := 'é' :: List.replicate 99 'a' ++ ['b']

theorem not_shows_accent : ¬Shows .onlyAscii accented ['b'] := by
  rintro ⟨⟨context, hcontext⟩, -⟩
  have hpanics : getMatchContext .onlyAscii accented ['b'] = none := by decide +kernel
  rw [hpanics] at hcontext
  cases hcontext

end TranscriptsRepository

end MeetilyLocal
