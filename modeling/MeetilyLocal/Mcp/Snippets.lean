import MeetilyLocal.Database.TranscriptSearch

/-!
# Snippets of search results

The embedding of `make_snippet` of the MCP server (`db.rs`), with the `LIKE` by which
`search_transcripts` has found the text. It looks for the lowercase of the query in the lowercase of
the text, takes the position for one of the text itself, and shows the characters around it.

The characters are counted, but the position is one in bytes, of another text. The snippet shows the
query exactly if the position is between two characters of the text, and an occurrence up to the
case of ASCII is near enough (`showsHit_iff`). Where lowercase changes the letters of ASCII only,
this is always so (`showsHit_of_lowercase`); a dotted capital I in front of the hit is enough for a
panic (`not_showsHit_dotted`).
-/

namespace MeetilyLocal

namespace Mcp

open Utf8 TranscriptsRepository

/-! ## The code -/

/-- Escape LIKE wildcards in user input so a query containing `%` or `_` searches for those literal
characters. -/
def escapeLike (query : List Char) : List Char :=
  query.flatMap fun c => if c = '%' ∨ c = '_' ∨ c = '\\' then ['\\', c] else [c]

/-- The query, escaped, between two percent signs. -/
def likePattern (query : List Char) : List Char := '%' :: escapeLike query ++ ['%']

/-- `LIKE ? ESCAPE '\'` -/
def isHit (query text : List Char) : Bool := sqlLike.likeEscape '\\' (likePattern query) text

/-- The sum of two `usize`s; none where it panics. -/
def addUsize (overflowChecks : Bool) (a b : ℕ) : Option ℕ :=
  if a + b < 2 ^ 64 then some (a + b)
  else if overflowChecks then none
  else some ((a + b) % 2 ^ 64)

/-- What is shown of a text. -/
structure Snippet : Type where
  /-- it was cut before -/
  cutBefore : Bool
  /-- the piece of the text -/
  body : List Char
  /-- it was cut behind -/
  cutBehind : Bool

/-- `chars[start..end]`; none where it panics. -/
def window (text : List Char) (start stop : ℕ) : Option Snippet :=
  if start ≤ stop ∧ stop ≤ text.length then
    some ⟨decide (0 < start), (text.take stop).drop start, decide (stop < text.length)⟩
  else none

/-- With ellipses where it was cut. -/
def Snippet.render (s : Snippet) : List Char :=
  (if s.cutBefore then ['…'] else []) ++ s.body ++ (if s.cutBehind then ['…'] else [])

variable (tables : CaseTables)

/-- `hit` -/
def hit (text query : List Char) : ℕ :=
  (find (tables.lowercase query) (tables.lowercase text)).getD 0

variable (overflowChecks : Bool)

/-- `hit_char + needle.chars().count() + radius` -/
def windowEnd (query : List Char) (hitChar radius : ℕ) : Option ℕ :=
  (addUsize overflowChecks hitChar (tables.lowercase query).length).bind fun hitEnd =>
    addUsize overflowChecks hitEnd radius

/-- The window of text; none where it panics. -/
def snippet (text query : List Char) (radius : ℕ) : Option Snippet :=
  (sliceAt? text 0 (hit tables text query)).bind fun front =>
    (windowEnd tables overflowChecks query front.length radius).bind fun sum =>
      window text (front.length - radius) (min sum text.length)

/-- Extract a window of text around the first case-insensitive hit of `query`. -/
def makeSnippet (text query : List Char) (radius : ℕ) : Option (List Char) :=
  (snippet tables overflowChecks text query radius).map Snippet.render

/-! ## What it should show -/

/-- No slice is inside of a character or out of range, what is shown is a piece of the text, and has
the query if the text does. -/
def ShowsHit (text query : List Char) (radius : ℕ) : Prop :=
  ∃ s, snippet tables overflowChecks text query radius = some s ∧ s.body <:+: text ∧
    (isHit query text = true → isHit query s.body = true)

/-- The end of the window, without the bound of the text, for so much in front of it. -/
def reach (query front : List Char) (radius : ℕ) : ℕ :=
  front.length + (tables.lowercase query).length + radius

/-- What stands before the first occurrence of the query, in lowercase. -/
def LeadsTo (text query lead : List Char) : Prop :=
  lead ++ tables.lowercase query <+: tables.lowercase text ∧
    ∀ lead', lead' ++ tables.lowercase query <+: tables.lowercase text → len lead ≤ len lead'

/-- A front of the text is as long as what leads to the query in lowercase, and the query is near
its end. -/
structure InReach (text query : List Char) (radius : ℕ) (front : List Char) : Prop where
  /-- it is a front of the text -/
  isPrefix : front <+: text
  /-- it is as long as what leads to the query, or empty where lowercase does not have it -/
  ends : (∃ lead, LeadsTo tables text query lead ∧ len front = len lead) ∨
    ¬tables.lowercase query <:+: tables.lowercase text ∧ front = []
  /-- no sum panics -/
  fits : reach tables query front radius < 2 ^ 64 ∨ overflowChecks = false
  /-- the window does not end before it starts -/
  start : front.length ≤ reach tables query front radius % 2 ^ 64 + radius
  /-- if the query is in the text, it is so in the window -/
  near : isHit query text = true → ∃ before occurrence rest, text = before ++ occurrence ++ rest ∧
    occurrence.map Char.toLower = query.map Char.toLower ∧
    front.length ≤ before.length + radius ∧
    (before ++ occurrence).length ≤ reach tables query front radius % 2 ^ 64

variable {tables} {overflowChecks} {text query front : List Char} {radius : ℕ}

/-! ## Occurrences -/

theorem escapeLike_eq (query : List Char) : escapeLike query = sqlLike.escaped '\\' query := by
  simp only [escapeLike, Wildcards.escaped, Wildcards.IsWild, sqlLike, or_assoc]

/-- **What is found** is the query itself, up to the case of ASCII. -/
theorem isHit_iff : isHit query text = true ↔
    query.map Char.toLower <:+: text.map Char.toLower := by
  rw [isHit, likePattern, escapeLike_eq]
  exact Wildcards.likeEscape_contains_iff (by decide)

/-- An occurrence up to folding. -/
theorem exists_of_map_isInfix {α : Type} {f : α → α} {query text : List α}
    (h : query.map f <:+: text.map f) :
    ∃ before occurrence rest, text = before ++ occurrence ++ rest ∧
      occurrence.map f = query.map f := by
  obtain ⟨front, behind, heq⟩ := h
  obtain ⟨before, rest, rfl, hfront, -⟩ := List.map_eq_append_iff.mp heq.symm
  obtain ⟨before, occurrence, rfl, -, hoccurrence⟩ := List.map_eq_append_iff.mp hfront
  exact ⟨before, occurrence, rest, rfl, hoccurrence⟩

/-- What is between two positions of a window is in it. -/
theorem isInfix_window {α : Type} {text before occurrence rest : List α} {start stop : ℕ}
    (h : text = before ++ occurrence ++ rest) (hstart : start ≤ before.length)
    (hstop : (before ++ occurrence).length ≤ stop) :
    occurrence <:+: (text.take stop).drop start := by
  have hfront : before ++ occurrence <+: text.take stop :=
    List.prefix_take_iff.mpr ⟨⟨rest, h.symm⟩, hstop⟩
  have hdrop := hfront.drop start
  rw [List.drop_append_of_le_length hstart] at hdrop
  exact (List.suffix_append _ _).isInfix.trans hdrop.isInfix

/-! ## The window -/

theorem sliceAt?_zero_iff {k : ℕ} :
    sliceAt? text 0 k = some front ↔ front <+: text ∧ len front = k := by
  have hzero : upTo text 0 = [] := len_eq_zero.mp (Nat.le_zero.mp (len_upTo_le text 0))
  refine ⟨fun h => ?_, ?_⟩
  · rw [sliceAt?] at h
    split at h
    · next hboundary =>
      obtain ⟨-, -, hk⟩ := hboundary
      have hle : k ≤ len text := by
        rcases hk with rfl | ⟨byte, hbyte, -⟩
        · exact le_rfl
        · exact (List.getElem?_eq_some_iff.mp hbyte).1.le
      rw [hzero, List.length_nil, List.drop_zero, Option.some.injEq] at h
      subst h
      exact ⟨upTo_isPrefix text k, (isCharBoundary_iff hle).mp hk⟩
    · cases h
  · rintro ⟨hfront, rfl⟩
    have hboundary : IsCharBoundary (encode text) (len front) := by
      rw [List.prefix_iff_eq_take.mp hfront]
      exact isCharBoundary_len_take text front.length
    rw [sliceAt?, if_pos ⟨Nat.zero_le _, isCharBoundary_zero text, hboundary⟩, hzero,
      List.length_nil, List.drop_zero, upTo_eq_of_isPrefix hfront]

/-- The position in lowercase is the length of what leads to the query. -/
theorem len_eq_hit_iff : len front = hit tables text query ↔
    (∃ lead, LeadsTo tables text query lead ∧ len front = len lead) ∨
      ¬tables.lowercase query <:+: tables.lowercase text ∧ front = [] := by
  rw [hit]
  rcases hfind : find (tables.lowercase query) (tables.lowercase text) with _ | k
  · have hnone := find_eq_none_iff.mp hfind
    rw [Option.getD_none, len_eq_zero]
    refine ⟨fun hnil => .inr ⟨hnone, hnil⟩, ?_⟩
    rintro (⟨lead, ⟨hlead, -⟩, -⟩ | ⟨-, hnil⟩)
    · exact absurd ((List.suffix_append lead _).isInfix.trans hlead.isInfix) hnone
    · exact hnil
  · obtain ⟨lead, hlead, hk⟩ := exists_of_find hfind
    have hfirst : ∀ lead', lead' ++ tables.lowercase query <+: tables.lowercase text →
        k ≤ len lead' := by
      intro lead' hlead'
      obtain ⟨j, hj, hle⟩ := exists_find_le hlead'
      rw [hfind, Option.some.injEq] at hj
      exact hj ▸ hle
    rw [Option.getD_some]
    refine ⟨fun hlen => .inl ⟨lead, ⟨hlead, by simpa [hk] using hfirst⟩, hlen.trans hk.symm⟩, ?_⟩
    rintro (⟨lead', ⟨hlead', hmin⟩, hlen⟩ | ⟨hnot, -⟩)
    · exact hlen.trans ((hk ▸ hmin lead hlead).antisymm (hfirst lead' hlead'))
    · exact absurd ((List.suffix_append lead _).isInfix.trans hlead.isInfix) hnot

/-- The sums, one behind the other. -/
theorem windowEnd_eq (query front : List Char) (radius : ℕ) :
    windowEnd tables overflowChecks query front.length radius =
      if reach tables query front radius < 2 ^ 64 ∨ overflowChecks = false then
        some (reach tables query front radius % 2 ^ 64)
      else none := by
  rw [windowEnd, reach]
  generalize front.length = a
  generalize (tables.lowercase query).length = b
  rcases Nat.lt_or_ge (a + b + radius) (2 ^ 64) with hfits | hwraps
  · rw [if_pos (.inl hfits), addUsize, if_pos (by omega), Option.bind_some, addUsize, if_pos hfits,
      Nat.mod_eq_of_lt hfits]
  · cases overflowChecks with
    | true =>
      rw [if_neg (by simpa using hwraps), addUsize]
      split
      · rw [Option.bind_some, addUsize, if_neg (by omega), if_pos rfl]
      · rfl
    | false =>
      have hmod : addUsize false ((a + b) % 2 ^ 64) radius = some ((a + b + radius) % 2 ^ 64) := by
        rw [addUsize]
        split
        · rw [Option.some.injEq]
          omega
        · simp
      rw [if_pos (.inr rfl), addUsize]
      split
      · next hlt => rwa [Option.bind_some, Nat.mod_eq_of_lt hlt] at *
      · exact hmod

/-- What is shown. -/
theorem snippet_eq_some_iff {s : Snippet} :
    snippet tables overflowChecks text query radius = some s ↔
      ∃ front, front <+: text ∧ len front = hit tables text query ∧
        (reach tables query front radius < 2 ^ 64 ∨ overflowChecks = false) ∧
        window text (front.length - radius)
          (min (reach tables query front radius % 2 ^ 64) text.length) = some s := by
  simp only [snippet, Option.bind_eq_some_iff, sliceAt?_zero_iff, windowEnd_eq]
  refine exists_congr fun front => ?_
  rw [and_assoc]
  refine and_congr_right fun _ => and_congr_right fun _ => ?_
  split
  · next hfits => simp only [Option.some.injEq, exists_eq_left', hfits, true_and]
  · next hpanics => simp only [hpanics, false_and, reduceCtorEq, exists_false]

theorem body_of_window {start stop : ℕ} {s : Snippet} (h : window text start stop = some s) :
    start ≤ stop ∧ stop ≤ text.length ∧ s.body = (text.take stop).drop start := by
  rw [window] at h
  split at h
  · next hle =>
    cases h
    exact ⟨hle.1, hle.2, rfl⟩
  · cases h

theorem body_isInfix {start stop : ℕ} {s : Snippet} (h : window text start stop = some s) :
    s.body <:+: text := by
  obtain ⟨-, -, hbody⟩ := body_of_window h
  rw [hbody]
  exact (List.drop_suffix _ _).isInfix.trans (List.take_prefix _ _).isInfix

/-- An occurrence in the window is one in the text, between the ends of the window. -/
theorem exists_of_isHit_body {start stop : ℕ} {s : Snippet} (h : window text start stop = some s)
    (hhit : isHit query s.body = true) :
    ∃ before occurrence rest, text = before ++ occurrence ++ rest ∧
      occurrence.map Char.toLower = query.map Char.toLower ∧ start ≤ before.length ∧
      (before ++ occurrence).length ≤ stop := by
  obtain ⟨hle, hstop, hbody⟩ := body_of_window h
  obtain ⟨before, occurrence, rest, heq, hquery⟩ := exists_of_map_isInfix (isHit_iff.mp hhit)
  rw [hbody] at heq
  refine ⟨text.take start ++ before, occurrence, rest ++ text.drop stop, ?_, hquery, ?_, ?_⟩
  · have hfront : text.take start ++ (text.take stop).drop start = text.take stop := by
      have hsplit := List.take_append_drop start (text.take stop)
      rwa [List.take_take, Nat.min_eq_left hle] at hsplit
    calc text = text.take start ++ (text.take stop).drop start ++ text.drop stop := by
          rw [hfront, List.take_append_drop]
      _ = _ := by simp [heq]
  · rw [List.length_append, List.length_take_of_le (hle.trans hstop)]
    exact Nat.le_add_right _ _
  · have hlen := congrArg List.length heq
    rw [List.length_drop, List.length_take_of_le hstop] at hlen
    simp only [List.length_append, List.length_take_of_le (hle.trans hstop)] at hlen ⊢
    omega

theorem inReach_of_showsHit (h : ShowsHit tables overflowChecks text query radius) :
    ∃ front, InReach tables overflowChecks text query radius front := by
  obtain ⟨s, hs, -, hshown⟩ := h
  obtain ⟨front, hfront, hends, hfits, hwindow⟩ := snippet_eq_some_iff.mp hs
  obtain ⟨hle, -, -⟩ := body_of_window hwindow
  refine ⟨front, hfront, len_eq_hit_iff.mp hends, hfits, by omega, fun hhit => ?_⟩
  obtain ⟨before, occurrence, rest, heq, hquery, hstart, hstop⟩ :=
    exists_of_isHit_body hwindow (hshown hhit)
  exact ⟨before, occurrence, rest, heq, hquery, by omega, hstop.trans (min_le_left _ _)⟩

theorem InReach.showsHit (h : InReach tables overflowChecks text query radius front) :
    ShowsHit tables overflowChecks text query radius := by
  obtain ⟨hfront, hends, hfits, hstart, hnear⟩ := h
  have hlen := hfront.length_le
  have hle : front.length - radius ≤
      min (reach tables query front radius % 2 ^ 64) text.length := by omega
  refine ⟨_, snippet_eq_some_iff.mpr ⟨front, hfront, len_eq_hit_iff.mpr hends, hfits,
    if_pos ⟨hle, min_le_right _ _⟩⟩, body_isInfix (if_pos ⟨hle, min_le_right _ _⟩), ?_⟩
  intro hhit
  obtain ⟨before, occurrence, rest, heq, hquery, hbefore, hbehind⟩ := hnear hhit
  have hin : (before ++ occurrence).length ≤ text.length := by simp [heq]
  rw [isHit_iff, ← hquery]
  exact (isInfix_window heq (Nat.sub_le_iff_le_add.mpr hbefore) (le_min hbehind hin)).map
    Char.toLower

/-- **Snippets show the hit**, without a panic, exactly if the position in lowercase is between two
characters of the text, and the query is near to it. -/
theorem showsHit_iff (tables : CaseTables) (overflowChecks : Bool) (text query : List Char)
    (radius : ℕ) : ShowsHit tables overflowChecks text query radius ↔
      ∃ front, InReach tables overflowChecks text query radius front :=
  ⟨inReach_of_showsHit, fun h => h.elim fun _ hfront => hfront.showsHit⟩

/-! ## Texts whose lowercase is that of ASCII -/

/-- The lowercase of ASCII keeps the lengths. -/
theorem len_map_toLower (text : List Char) : len (text.map Char.toLower) = len text := by
  have hsize : ∀ c : Char, c.toLower.utf8Size = c.utf8Size := by
    intro c
    by_cases hc : IsAscii c
    · rw [hc.utf8Size_eq, hc.toLower.utf8Size_eq]
    · rw [toLower_of_not_ascii hc]
  induction text with
  | nil => rfl
  | cons c text ih => rw [List.map_cons, len_cons, len_cons, ih, hsize]

/-- Where lowercase changes the letters of ASCII only, every snippet shows its hit. -/
theorem showsHit_of_lowercase (htext : tables.lowercase text = text.map Char.toLower)
    (hquery : tables.lowercase query = query.map Char.toLower)
    (hfits : text.length + query.length + radius < 2 ^ 64) :
    ShowsHit tables overflowChecks text query radius := by
  have hlength : (tables.lowercase query).length = query.length := by rw [hquery, List.length_map]
  rcases hfind : find (query.map Char.toLower) (text.map Char.toLower) with _ | k
  · -- the snippet is the head of the text
    have hends : len [] = hit tables text query := by
      rw [hit, htext, hquery, hfind]
      rfl
    refine InReach.showsHit ⟨List.nil_prefix, len_eq_hit_iff.mp hends, .inl ?_, Nat.zero_le _,
      fun hhit => ?_⟩
    · rw [reach, hlength, List.length_nil]
      omega
    · exact absurd (isHit_iff.mp hhit) (find_eq_none_iff.mp hfind)
  · obtain ⟨front, ⟨behind, hfront⟩, hlen⟩ := exists_of_find hfind
    obtain ⟨upper, rest, rfl, hupper, -⟩ := List.map_eq_append_iff.mp hfront.symm
    obtain ⟨before, occurrence, rfl, rfl, hoccurrence⟩ := List.map_eq_append_iff.mp hupper
    have hcount : occurrence.length = query.length := by
      simpa using congrArg List.length hoccurrence
    have hreach : reach tables query before radius = before.length + query.length + radius := by
      rw [reach, hlength]
    simp only [List.length_append] at hfits
    have hmod := Nat.mod_eq_of_lt (a := reach tables query before radius) (b := 2 ^ 64) (by omega)
    have hstarts : before <+: before ++ occurrence ++ rest :=
      (List.prefix_append _ _).trans (List.prefix_append _ _)
    refine InReach.showsHit ⟨hstarts, len_eq_hit_iff.mp ?_, .inl (by omega), by omega,
      fun _ => ⟨before, occurrence, rest, rfl, hoccurrence, by omega, ?_⟩⟩
    · rw [hit, htext, hquery, hfind, Option.getD_some, ← hlen, len_map_toLower]
    · rw [hmod, hreach, List.length_append]
      omega

/-- A hit behind a dotted capital I, whose lowercase is longer by one byte. -/
theorem not_showsHit_dotted : ¬ShowsHit .onlyAscii true ['İ', 'é'] ['é'] 120 := by
  rintro ⟨s, hs, -⟩
  have hpanics : snippet .onlyAscii true ['İ', 'é'] ['é'] 120 = none := by decide +kernel
  rw [hpanics] at hs
  cases hs

end Mcp

end MeetilyLocal
