import Mathlib.Data.List.Infix
import Mathlib.Tactic.Common

/-!
# Patterns with wildcards

The operator `LIKE` of SQL, over any letters: in a pattern one wildcard matches any run of letters and
another one any single letter, and any other letter matches those that it is the same as when folded
(`Wildcards`).

A pattern between two wildcards is looked for everywhere in a text. If it has no further ones, it is found
where the text contains it, folded (`like_contains_iff`); otherwise it also matches a text that has another
letter for each of them (`like_contains_fill`). With an escape letter in front of each of them any text can
be looked for as it is (`likeEscape_contains_iff`).
-/

namespace MeetilyLocal

/-- What the letters of a pattern match. -/
structure Wildcards (α : Type*) : Type _ where
  /-- matches any run of letters -/
  many : α
  /-- matches any letter -/
  one : α
  /-- any other letter matches those that are the same, folded -/
  fold : α → α

namespace Wildcards

variable {α : Type*} [DecidableEq α] (w : Wildcards α)

/-- `text LIKE pattern` -/
def like : List α → List α → Bool
  | [], text => text.isEmpty
  | c :: pattern, text =>
    if c = w.many then text.tails.any (like pattern)
    else
      match text with
      | [] => false
      | d :: rest => (c = w.one || w.fold c = w.fold d) && like pattern rest

/-- A wildcard. -/
def IsWild (c : α) : Prop := c = w.many ∨ c = w.one

instance : DecidablePred w.IsWild := fun c => inferInstanceAs (Decidable (c = w.many ∨ c = w.one))

variable {w} {pattern text : List α}

theorem like_many : w.like (w.many :: pattern) text = true ↔
    ∃ behind, behind <:+ text ∧ w.like pattern behind = true := by
  simp [like]

theorem like_single_many (text : List α) : w.like [w.many] text = true :=
  like_many.mpr ⟨[], List.nil_suffix, rfl⟩

theorem like_cons_of_not_isWild {c : α} (hc : ¬w.IsWild c) :
    w.like (c :: pattern) text = true ↔
      ∃ d rest, text = d :: rest ∧ w.fold c = w.fold d ∧ w.like pattern rest = true := by
  obtain ⟨hmany, hone⟩ := not_or.mp hc
  rw [like.eq_def]
  cases text with
  | nil => simp [hmany]
  | cons d rest => simp [hmany, hone]

/-- A pattern without wildcards in front of one for the rest. -/
theorem like_starts_iff (h : ∀ c ∈ pattern, ¬w.IsWild c) :
    w.like (pattern ++ [w.many]) text = true ↔ pattern.map w.fold <+: text.map w.fold := by
  induction pattern generalizing text with
  | nil => simp [like_single_many]
  | cons c pattern ih =>
    obtain ⟨hc, hpattern⟩ := List.forall_mem_cons.mp h
    rw [List.cons_append, like_cons_of_not_isWild hc]
    cases text with
    | nil => simp
    | cons d rest => simp [ih hpattern, List.cons_prefix_cons]

/-- **A pattern without wildcards**, between two of them. -/
theorem like_contains_iff (h : ∀ c ∈ pattern, ¬w.IsWild c) :
    w.like (w.many :: pattern ++ [w.many]) text = true ↔
      pattern.map w.fold <:+: text.map w.fold := by
  rw [List.cons_append, like_many, List.infix_iff_prefix_suffix]
  refine ⟨?_, ?_⟩
  · rintro ⟨behind, hbehind, hlike⟩
    exact ⟨_, (like_starts_iff h).mp hlike, hbehind.map w.fold⟩
  · rintro ⟨_, hstarts, ⟨front, hbehind⟩⟩
    obtain ⟨_, behind, rfl, -, rfl⟩ := List.map_eq_append_iff.mp hbehind.symm
    exact ⟨behind, List.suffix_append _ _, (like_starts_iff h).mpr hstarts⟩

/-! ## Other letters for the wildcards -/

variable (w) in
/-- The pattern, with a letter for each wildcard. -/
def fill (a : α) (pattern : List α) : List α := pattern.map fun c => if w.IsWild c then a else c

theorem not_isWild_of_mem_fill {a c : α} (ha : ¬w.IsWild a) (h : c ∈ w.fill a pattern) :
    ¬w.IsWild c := by
  obtain ⟨d, -, rfl⟩ := List.mem_map.mp h
  split
  · exact ha
  · assumption

theorem like_starts_fill (a : α) (pattern : List α) :
    w.like (pattern ++ [w.many]) (w.fill a pattern) = true := by
  induction pattern with
  | nil => exact like_single_many []
  | cons c pattern ih =>
    have hfill : w.fill a (c :: pattern) = (if w.IsWild c then a else c) :: w.fill a pattern := rfl
    rw [List.cons_append, hfill]
    by_cases hmany : c = w.many
    · rw [hmany, like_many]
      exact ⟨_, List.suffix_cons _ _, ih⟩
    · rw [like, if_neg hmany]
      by_cases hone : c = w.one
      · simp [hone, ih]
      · simp [IsWild, hmany, hone, ih]

/-- **A pattern matches** whatever stands for its wildcards. -/
theorem like_contains_fill (a : α) (pattern : List α) :
    w.like (w.many :: pattern ++ [w.many]) (w.fill a pattern) = true := by
  rw [List.cons_append, like_many]
  exact ⟨_, List.suffix_rfl, like_starts_fill a pattern⟩

/-! ## Wildcards that are escaped -/

variable (w) in
/-- `text LIKE pattern ESCAPE escape`: the letter behind an escape is no wildcard. -/
def likeEscape (escape : α) : List α → List α → Bool
  | [], text => text.isEmpty
  | c :: pattern, text =>
    if c = w.many then text.tails.any (likeEscape escape pattern)
    else if c = escape then
      match pattern, text with
      | d :: pattern, e :: rest => w.fold d = w.fold e && likeEscape escape pattern rest
      | _, _ => false
    else
      match text with
      | [] => false
      | d :: rest => (c = w.one || w.fold c = w.fold d) && likeEscape escape pattern rest

variable (w) in
/-- A text as a pattern for itself. -/
def escaped (escape : α) (text : List α) : List α :=
  text.flatMap fun c => if w.IsWild c ∨ c = escape then [escape, c] else [c]

variable {escape : α}

theorem likeEscape_many : w.likeEscape escape (w.many :: pattern) text = true ↔
    ∃ behind, behind <:+ text ∧ w.likeEscape escape pattern behind = true := by
  rw [likeEscape.eq_def]
  simp

/-- A letter as a pattern for itself matches it. -/
theorem likeEscape_cons {c : α} {query : List α} (hescape : ¬w.IsWild escape) :
    w.likeEscape escape (w.escaped escape (c :: query) ++ pattern) text = true ↔
      ∃ d rest, text = d :: rest ∧ w.fold c = w.fold d ∧
        w.likeEscape escape (w.escaped escape query ++ pattern) rest = true := by
  obtain ⟨hmany, -⟩ := not_or.mp hescape
  rw [escaped, List.flatMap_cons, ← escaped, List.append_assoc]
  split
  · rw [List.cons_append, List.singleton_append, likeEscape.eq_def]
    cases text with
    | nil => simp [hmany]
    | cons d rest => simp [hmany]
  · next hc =>
    obtain ⟨hwild, hne⟩ := not_or.mp hc
    obtain ⟨hmany', hone⟩ := not_or.mp hwild
    rw [List.singleton_append, likeEscape.eq_def]
    cases text with
    | nil => simp [hmany', hne]
    | cons d rest => simp [hmany', hne, hone]

theorem likeEscape_starts_iff {query : List α} (hescape : ¬w.IsWild escape) :
    w.likeEscape escape (w.escaped escape query ++ [w.many]) text = true ↔
      query.map w.fold <+: text.map w.fold := by
  induction query generalizing text with
  | nil =>
    rw [escaped, List.flatMap_nil, List.nil_append, likeEscape_many]
    exact iff_of_true ⟨[], List.nil_suffix, rfl⟩ List.nil_prefix
  | cons c query ih =>
    rw [likeEscape_cons hescape]
    cases text with
    | nil => simp
    | cons d rest => simp [ih, List.cons_prefix_cons]

/-- **Any text**, escaped, between two wildcards. -/
theorem likeEscape_contains_iff {query : List α} (hescape : ¬w.IsWild escape) :
    w.likeEscape escape (w.many :: w.escaped escape query ++ [w.many]) text = true ↔
      query.map w.fold <:+: text.map w.fold := by
  rw [List.cons_append, likeEscape_many, List.infix_iff_prefix_suffix]
  refine ⟨?_, ?_⟩
  · rintro ⟨behind, hbehind, hlike⟩
    exact ⟨_, (likeEscape_starts_iff hescape).mp hlike, hbehind.map w.fold⟩
  · rintro ⟨_, hstarts, ⟨front, hbehind⟩⟩
    obtain ⟨_, behind, rfl, -, rfl⟩ := List.map_eq_append_iff.mp hbehind.symm
    exact ⟨behind, List.suffix_append _ _, (likeEscape_starts_iff hescape).mpr hstarts⟩

end Wildcards

end MeetilyLocal
