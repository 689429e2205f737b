import MeetilyLocal.Library.TextPositions

/-!
# Lowercase

The lowercase of a text, as of a Rust `String`: each character becomes one or more, by the tables of
Unicode, but a capital sigma at the end of a word becomes the final one. The tables are given from
outside, with what they say of the characters of ASCII (`CaseTables`).

No character becomes ASCII in lowercase but those of ASCII, the Kelvin sign and the first half of a
dotted capital I. A text whose lowercase starts with ASCII ones therefore starts with as many of ASCII
itself (`exists_ascii_prefix`), and a position found in the lowercase is one of the text.
-/

namespace MeetilyLocal

/-- A character of ASCII. -/
def IsAscii (c : Char) : Prop := c.toNat < 128

instance : DecidablePred IsAscii := fun c => inferInstanceAs (Decidable (c.toNat < 128))

/-- What is so of the 128 characters of ASCII. -/
theorem IsAscii.of_forall {p : Char → Prop} (h : ∀ n < 128, p (Char.ofNat n)) {c : Char}
    (hc : IsAscii c) : p c := by
  rw [← Char.ofNat_toNat c]
  exact h c.toNat hc

theorem IsAscii.toLower {c : Char} (h : IsAscii c) : IsAscii c.toLower :=
  IsAscii.of_forall (p := fun c => IsAscii c.toLower) (by decide) h

theorem IsAscii.toLower_toLower {c : Char} (h : IsAscii c) : c.toLower.toLower = c.toLower :=
  IsAscii.of_forall (p := fun c => c.toLower.toLower = c.toLower) (by decide) h

theorem toLower_of_not_ascii {c : Char} (h : ¬IsAscii c) : c.toLower = c := by
  refine dif_neg fun hupper => h ?_
  have hle : c.val.toNat ≤ 90 := UInt32.le_iff_toNat_le.mp hupper.2
  rw [IsAscii, Char.toNat]
  omega

theorem toLower_toLower (c : Char) : c.toLower.toLower = c.toLower := by
  by_cases hc : IsAscii c
  · exact hc.toLower_toLower
  · rw [toLower_of_not_ascii hc, toLower_of_not_ascii hc]

theorem IsAscii.utf8Size_eq {c : Char} (h : IsAscii c) : c.utf8Size = 1 :=
  IsAscii.of_forall (p := fun c => c.utf8Size = 1) (by decide) h

open Utf8 in
theorem len_of_ascii {text : List Char} (h : ∀ c ∈ text, IsAscii c) : len text = text.length := by
  induction text with
  | nil => rfl
  | cons c cs ih =>
    obtain ⟨hc, hrest⟩ := List.forall_mem_cons.mp h
    rw [len_cons, hc.utf8Size_eq, ih hrest, List.length_cons, Nat.add_comm]

open Utf8 in
/-- ASCII can be cut anywhere. -/
theorem isCharBoundary_of_ascii {text : List Char} (h : ∀ c ∈ text, IsAscii c) {k : ℕ}
    (hk : k ≤ len text) : IsCharBoundary (encode text) k := by
  have hlen : len (text.take k) = k := by
    rw [len_of_ascii fun c hc => h c (List.take_subset _ _ hc), List.length_take]
    exact Nat.min_eq_left (hk.trans (len_of_ascii h).le)
  simpa only [hlen] using isCharBoundary_len_take text k

/-- What the standard library knows about lowercase. -/
structure CaseTables where
  /-- `char::to_lowercase` -/
  toLowercase : Char → List Char
  /-- whether a capital sigma ends a word, by the characters before it, backwards, and after it -/
  endsWord : List Char → List Char → Bool
  toLowercase_ne_nil : ∀ c, toLowercase c ≠ []
  toLowercase_of_ascii : ∀ c, IsAscii c → toLowercase c = [c.toLower]
  toLowercase_kelvin : toLowercase '\u212A' = ['k']
  toLowercase_dotted : toLowercase 'İ' = ['i', '\u0307']
  /-- no other character becomes one of ASCII -/
  not_isAscii : ∀ c, ¬IsAscii c → c ≠ '\u212A' → c ≠ 'İ' → ∀ d ∈ toLowercase c, ¬IsAscii d
  /-- lowercase stays as it is -/
  toLowercase_of_mem : ∀ c, ∀ d ∈ toLowercase c, toLowercase d = [d]
  toLowercase_sigma : toLowercase 'Σ' = ['σ']
  toLowercase_finalSigma : toLowercase 'ς' = ['ς']

namespace CaseTables

variable (tables : CaseTables)

/-- What a character becomes in its place. -/
def lowerAt (before : List Char) (c : Char) (after : List Char) : List Char :=
  if c = 'Σ' then (if tables.endsWord before after then ['ς'] else ['σ'])
  else tables.toLowercase c

/-- The lowercase of a text that is behind another one. -/
def lowercaseFrom (before : List Char) : List Char → List Char
  | [] => []
  | c :: cs => tables.lowerAt before c cs ++ lowercaseFrom (c :: before) cs

/-- `str::to_lowercase` -/
def lowercase (text : List Char) : List Char := tables.lowercaseFrom [] text

variable {tables}

theorem lowerAt_ne_nil (tables : CaseTables) (before : List Char) (c : Char) (after : List Char) :
    tables.lowerAt before c after ≠ [] := by
  rw [lowerAt]
  split
  · split <;> simp
  · exact tables.toLowercase_ne_nil c

theorem lowerAt_of_ascii {c : Char} (h : IsAscii c) (before after : List Char) :
    tables.lowerAt before c after = [c.toLower] := by
  have hne : c ≠ 'Σ' := by
    rintro rfl
    exact absurd h (by decide)
  rw [lowerAt, if_neg hne, tables.toLowercase_of_ascii c h]

/-- Another character becomes none of ASCII, but for two of them. -/
theorem lowerAt_cases (tables : CaseTables) {c : Char} (h : ¬IsAscii c) (before after : List Char) :
    (∀ d ∈ tables.lowerAt before c after, ¬IsAscii d) ∨
      tables.lowerAt before c after = ['k'] ∨ tables.lowerAt before c after = ['i', '\u0307'] := by
  rw [lowerAt]
  split_ifs
  · exact .inl (List.forall_mem_singleton.mpr (by decide))
  · exact .inl (List.forall_mem_singleton.mpr (by decide))
  · by_cases hkelvin : c = '\u212A'
    · exact .inr (.inl (hkelvin ▸ tables.toLowercase_kelvin))
    by_cases hdotted : c = 'İ'
    · exact .inr (.inr (hdotted ▸ tables.toLowercase_dotted))
    exact .inl (tables.not_isAscii c h hkelvin hdotted)

/-- Another character starts with one of ASCII only if it is one of two. -/
theorem lowerAt_of_not_ascii {c d : Char} {before after rest : List Char} (h : ¬IsAscii c)
    (hd : IsAscii d) (hlower : tables.lowerAt before c after = d :: rest) :
    (d = 'k' ∧ rest = []) ∨ (d = 'i' ∧ rest = ['\u0307']) := by
  rcases lowerAt_cases tables h before after with hnone | hk | hi
  · exact absurd hd (hnone d (hlower ▸ List.mem_cons_self))
  · exact .inl (List.cons.inj (hlower.symm.trans hk))
  · exact .inr (List.cons.inj (hlower.symm.trans hi))

/-- Only the first of what a character becomes may be of ASCII. -/
theorem not_isAscii_of_lowerAt {c d e : Char} {before after rest : List Char}
    (hlower : tables.lowerAt before c after = e :: rest) (hd : d ∈ rest) : ¬IsAscii d := by
  by_cases hc : IsAscii c
  · rw [lowerAt_of_ascii hc] at hlower
    obtain ⟨-, rfl⟩ := List.cons.inj hlower
    cases hd
  rcases lowerAt_cases tables hc before after with hnone | hk | hi
  · exact hnone d (hlower ▸ List.mem_cons_of_mem e hd)
  · obtain ⟨-, rfl⟩ := List.cons.inj (hlower.symm.trans hk)
    cases hd
  · obtain ⟨-, rfl⟩ := List.cons.inj (hlower.symm.trans hi)
    rw [List.mem_singleton.mp hd]
    decide

/-- **A text whose lowercase starts with ASCII** starts with as many characters of ASCII, if those are not
what the two others may become. -/
theorem exists_ascii_prefix {p before text : List Char} (hascii : ∀ c ∈ p, IsAscii c) (hk : 'k' ∉ p)
    (hi : p.getLast? ≠ some 'i') (h : p <+: tables.lowercaseFrom before text) :
    ∃ front rest, text = front ++ rest ∧ front.map Char.toLower = p ∧ ∀ c ∈ front, IsAscii c := by
  induction p generalizing before text with
  | nil => exact ⟨[], text, rfl, rfl, by simp⟩
  | cons d p ih =>
    obtain ⟨hd, hp⟩ := List.forall_mem_cons.mp hascii
    cases text with
    | nil => exact absurd h (by simp [lowercaseFrom])
    | cons c cs =>
      rw [lowercaseFrom] at h
      by_cases hc : IsAscii c
      · rw [lowerAt_of_ascii hc, List.singleton_append, List.cons_prefix_cons] at h
        obtain ⟨rfl, hrest⟩ := h
        have hlast : p.getLast? ≠ some 'i' := by
          intro hlast
          obtain ⟨e, p, rfl⟩ := List.exists_cons_of_ne_nil (l := p) (by rintro rfl; simp at hlast)
          exact hi (by rw [List.getLast?_cons_cons, hlast])
        obtain ⟨front, rest, rfl, hfront, hall⟩ :=
          ih hp (fun hmem => hk (List.mem_cons_of_mem _ hmem)) hlast hrest
        exact ⟨c :: front, rest, rfl, by rw [List.map_cons, hfront],
          List.forall_mem_cons.mpr ⟨hc, hall⟩⟩
      · obtain ⟨e, more, hlower⟩ :=
          List.exists_cons_of_ne_nil (lowerAt_ne_nil tables before c cs)
        rw [hlower, List.cons_append, List.cons_prefix_cons] at h
        obtain ⟨rfl, hrest⟩ := h
        rcases lowerAt_of_not_ascii hc hd hlower with ⟨rfl, -⟩ | ⟨rfl, rfl⟩
        · exact absurd List.mem_cons_self hk
        · -- what follows is the dot
          cases p with
          | nil => exact absurd rfl hi
          | cons e p =>
            obtain ⟨rfl, -⟩ := List.cons_prefix_cons.mp hrest
            exact absurd (hp _ List.mem_cons_self) (by decide)

/-- **Wherever the lowercase of a text contains ASCII**, so does the text. -/
theorem isInfix_map_toLower {p before text : List Char} (hascii : ∀ c ∈ p, IsAscii c) (hk : 'k' ∉ p)
    (hi : p.getLast? ≠ some 'i') (h : p <:+: tables.lowercaseFrom before text) :
    p <:+: text.map Char.toLower := by
  rcases p with _ | ⟨d, p⟩
  · exact List.nil_infix
  have hd : IsAscii d := hascii d List.mem_cons_self
  induction text generalizing before with
  | nil => exact absurd (List.infix_nil.mp h) (List.cons_ne_nil d p)
  | cons c cs ih =>
    obtain ⟨e, rest, hlower⟩ := List.exists_cons_of_ne_nil (lowerAt_ne_nil tables before c cs)
    by_cases hstarts : d :: p <+: tables.lowercaseFrom before (c :: cs)
    · obtain ⟨front, behind, heq, hfront, -⟩ := exists_ascii_prefix hascii hk hi hstarts
      rw [heq, List.map_append, hfront]
      exact (List.prefix_append _ _).isInfix
    · rw [lowercaseFrom, hlower, List.cons_append] at h hstarts
      have hrest := (List.infix_cons_iff.mp h).resolve_left hstarts
      -- it does not start inside of what the character becomes
      have hnone : ∀ x ∈ rest, ¬IsAscii x := fun x hx => not_isAscii_of_lowerAt hlower hx
      clear h hstarts hlower
      have hcs : d :: p <:+: tables.lowercaseFrom (c :: before) cs := by
        induction rest with
        | nil => exact hrest
        | cons x rest ihrest =>
          obtain ⟨hx, hnone⟩ := List.forall_mem_cons.mp hnone
          refine ihrest ((List.infix_cons_iff.mp hrest).resolve_left fun hstarts => ?_) hnone
          exact hx ((List.cons_prefix_cons.mp hstarts).1 ▸ hd)
      exact (ih hcs).trans (List.suffix_cons _ _).isInfix

/-- What a character of a text becomes is in its lowercase. -/
theorem exists_lowerAt_subset (tables : CaseTables) {c : Char} {text : List Char} (h : c ∈ text)
    (before : List Char) :
    ∃ before' after, tables.lowerAt before' c after ⊆ tables.lowercaseFrom before text := by
  induction text generalizing before with
  | nil => cases h
  | cons d ds ih =>
    rw [lowercaseFrom]
    rcases List.mem_cons.mp h with rfl | h
    · exact ⟨before, ds, List.subset_append_left _ _⟩
    · obtain ⟨before', after, hsubset⟩ := ih h (d :: before)
      exact ⟨before', after, List.Subset.trans hsubset (List.subset_append_right _ _)⟩

/-! ## What stays -/

/-- A character that lowercase leaves as it is, wherever it stands. -/
def Stays (tables : CaseTables) (d : Char) : Prop := d ≠ 'Σ' ∧ tables.toLowercase d = [d]

theorem Stays.lowerAt {d : Char} (h : tables.Stays d) (before after : List Char) :
    tables.lowerAt before d after = [d] := by
  rw [CaseTables.lowerAt, if_neg h.1, h.2]

theorem Stays.toLower_eq {d : Char} (h : tables.Stays d) : d.toLower = d := by
  by_cases hd : IsAscii d
  · have hlower := tables.toLowercase_of_ascii d hd
    rw [h.2] at hlower
    exact (List.cons.inj hlower).1.symm
  · exact toLower_of_not_ascii hd

theorem stays_of_mem_lowerAt {before after : List Char} {c d : Char}
    (h : d ∈ tables.lowerAt before c after) : tables.Stays d := by
  have hsigma := tables.toLowercase_sigma
  rw [lowerAt] at h
  split_ifs at h
  · obtain rfl := List.mem_singleton.mp h
    exact ⟨by decide, tables.toLowercase_finalSigma⟩
  · obtain rfl := List.mem_singleton.mp h
    exact ⟨by decide, tables.toLowercase_of_mem 'Σ' 'σ' (by simp [hsigma])⟩
  · have hd := tables.toLowercase_of_mem c d h
    refine ⟨?_, hd⟩
    rintro rfl
    rw [hsigma] at hd
    exact absurd hd (by decide)

/-- A character that has the lowercase of ASCII becomes one that stays. -/
theorem Stays.lowerAt_of_toLower {c d : Char} (h : tables.Stays d) (hc : c.toLower = d)
    (before after : List Char) : tables.lowerAt before c after = [d] := by
  by_cases hascii : IsAscii c
  · rw [lowerAt_of_ascii hascii, hc]
  · rw [toLower_of_not_ascii hascii] at hc
    rw [hc, h.lowerAt]

theorem exists_of_mem_lowercaseFrom {before text : List Char} {d : Char}
    (h : d ∈ tables.lowercaseFrom before text) :
    ∃ c ∈ text, ∃ before' after, d ∈ tables.lowerAt before' c after := by
  induction text generalizing before with
  | nil => cases h
  | cons c cs ih =>
    rw [lowercaseFrom] at h
    rcases List.mem_append.mp h with h | h
    · exact ⟨c, List.mem_cons_self, before, cs, h⟩
    · obtain ⟨c', hc', hlower⟩ := ih h
      exact ⟨c', List.mem_cons_of_mem _ hc', hlower⟩

theorem stays_of_mem_lowercase {text : List Char} {d : Char} (h : d ∈ tables.lowercase text) :
    tables.Stays d := by
  obtain ⟨c, -, before, after, hlower⟩ := exists_of_mem_lowercaseFrom h
  exact stays_of_mem_lowerAt hlower

/-- A character of ASCII that is no letter is in the lowercase of the texts that it is in. -/
theorem mem_lowercase_iff {a : Char} (ha : IsAscii a) (hk : a ≠ 'k') (hi : a ≠ 'i')
    (hcase : ∀ c, IsAscii c → (c.toLower = a ↔ c = a)) {text : List Char} :
    a ∈ tables.lowercase text ↔ a ∈ text := by
  refine ⟨fun h => ?_, fun h => ?_⟩
  · obtain ⟨c, hc, before, after, hlower⟩ := exists_of_mem_lowercaseFrom h
    by_cases hascii : IsAscii c
    · rw [lowerAt_of_ascii hascii] at hlower
      rwa [(hcase c hascii).mp (List.mem_singleton.mp hlower).symm] at hc
    · rcases lowerAt_cases tables hascii before after with hnone | heq | heq
      · exact absurd ha (hnone a hlower)
      · rw [heq] at hlower
        exact absurd (List.mem_singleton.mp hlower) hk
      · rw [heq] at hlower
        rcases List.mem_pair.mp hlower with rfl | rfl
        · exact absurd rfl hi
        · exact absurd ha (by decide)
  · obtain ⟨before, after, hsubset⟩ := exists_lowerAt_subset tables h []
    refine hsubset ?_
    rw [lowerAt_of_ascii ha, (hcase a ha).mpr rfl]
    exact List.mem_singleton_self a

/-! ## Occurrences in the lowercase -/

/-- An occurrence up to the case of ASCII is one in the lowercase. -/
theorem isPrefix_lowercaseFrom {p m : List Char} (hm : m.map Char.toLower = p)
    (hp : ∀ d ∈ p, tables.Stays d) (before rest : List Char) :
    p <+: tables.lowercaseFrom before (m ++ rest) := by
  induction m generalizing p before with
  | nil =>
    rw [← hm]
    exact List.nil_prefix
  | cons c m ih =>
    subst hm
    obtain ⟨hd, hp⟩ := List.forall_mem_cons.mp hp
    rw [List.cons_append, lowercaseFrom, hd.lowerAt_of_toLower rfl, List.map_cons,
      List.singleton_append, List.cons_prefix_cons]
    exact ⟨rfl, ih rfl hp (c :: before)⟩

theorem isInfix_lowercaseFrom {p text : List Char} (hp : ∀ d ∈ p, tables.Stays d)
    (h : p <:+: text.map Char.toLower) (before : List Char) :
    p <:+: tables.lowercaseFrom before text := by
  obtain ⟨behind, hfront, ⟨front, hbehind⟩⟩ := List.infix_iff_prefix_suffix.mp h
  obtain ⟨skipped, rest, rfl, -, rfl⟩ := List.map_eq_append_iff.mp hbehind.symm
  clear hbehind h
  induction skipped generalizing before with
  | nil =>
    obtain ⟨more, hmore⟩ := hfront
    obtain ⟨m, after, rfl, hm, -⟩ := List.map_eq_append_iff.mp hmore.symm
    exact (isPrefix_lowercaseFrom hm hp before after).isInfix
  | cons c skipped ih =>
    rw [List.cons_append, lowercaseFrom]
    exact (ih (c :: before)).trans (List.suffix_append _ _).isInfix

/-- The lowercase of ASCII. -/
theorem lowercaseFrom_of_ascii {before text : List Char} (h : ∀ c ∈ text, IsAscii c) :
    tables.lowercaseFrom before text = text.map Char.toLower := by
  induction text generalizing before with
  | nil => rfl
  | cons c cs ih =>
    obtain ⟨hc, hrest⟩ := List.forall_mem_cons.mp h
    rw [lowercaseFrom, lowerAt_of_ascii hc, ih hrest]
    rfl

open Utf8

theorem len_lowerAt_of_ascii {c : Char} (h : IsAscii c) (before after : List Char) :
    len (tables.lowerAt before c after) = 1 := by
  rw [lowerAt_of_ascii h, len_of_ascii (by simpa using h.toLower), List.length_singleton]

theorem len_lowercase_of_ascii (tables : CaseTables) {text : List Char} (h : ∀ c ∈ text, IsAscii c) :
    len (tables.lowercase text) = len text := by
  have hall : ∀ c ∈ text.map Char.toLower, IsAscii c := by
    intro c hc
    obtain ⟨d, hd, rfl⟩ := List.mem_map.mp hc
    exact (h d hd).toLower
  rw [lowercase, lowercaseFrom_of_ascii h, len_of_ascii hall, len_of_ascii h, List.length_map]

/-- A text without a capital sigma becomes what its characters become. -/
theorem lowercaseFrom_eq_flatMap {text : List Char} (h : 'Σ' ∉ text) (before : List Char) :
    tables.lowercaseFrom before text = text.flatMap tables.toLowercase := by
  induction text generalizing before with
  | nil => rfl
  | cons c cs ih =>
    obtain ⟨hc, hcs⟩ := not_or.mp (mt List.mem_cons.mpr h)
    rw [lowercaseFrom, lowerAt, if_neg (Ne.symm hc), ih hcs, List.flatMap_cons]

theorem flatMap_of_stays {text : List Char} (h : ∀ d ∈ text, tables.Stays d) :
    text.flatMap tables.toLowercase = text := by
  induction text with
  | nil => rfl
  | cons c cs ih =>
    obtain ⟨hc, hcs⟩ := List.forall_mem_cons.mp h
    rw [List.flatMap_cons, hc.2, ih hcs, List.singleton_append]

/-- Another character among those that stay. -/
theorem lowercase_append_cons {front behind : List Char} {c : Char} (hc : c ≠ 'Σ')
    (hfront : ∀ d ∈ front, tables.Stays d) (hbehind : ∀ d ∈ behind, tables.Stays d) :
    tables.lowercase (front ++ c :: behind) = front ++ (tables.toLowercase c ++ behind) := by
  have hnone : 'Σ' ∉ front ++ c :: behind := by
    intro hmem
    rcases List.mem_append.mp hmem with hmem | hmem
    · exact (hfront _ hmem).1 rfl
    rcases List.mem_cons.mp hmem with rfl | hmem
    · exact hc rfl
    · exact (hbehind _ hmem).1 rfl
  rw [lowercase, lowercaseFrom_eq_flatMap hnone, List.flatMap_append, List.flatMap_cons,
    flatMap_of_stays hfront, flatMap_of_stays hbehind]

/-! ## Where the lowercase comes from -/

/-- Where the character of a text starts that has become what is at `k` in its lowercase. -/
def sourceStart (tables : CaseTables) (before : List Char) : List Char → ℕ → ℕ
  | [], _ => 0
  | c :: cs, k =>
    let n := len (tables.lowerAt before c cs)
    if n ≤ k then c.utf8Size + sourceStart tables (c :: before) cs (k - n) else 0

/-- Where the character of a text stops that has become what is in front of `k` in its lowercase. -/
def sourceStop (tables : CaseTables) (before : List Char) : List Char → ℕ → ℕ
  | [], _ => 0
  | c :: cs, k =>
    if k = 0 then 0
    else
      c.utf8Size + sourceStop tables (c :: before) cs (k - len (tables.lowerAt before c cs))

/-- What the front of a text becomes in the lowercase of all of it. -/
def lowercaseIn (tables : CaseTables) (before : List Char) : List Char → List Char → List Char
  | [], _ => []
  | c :: cs, after =>
    tables.lowerAt before c (cs ++ after) ++ lowercaseIn tables (c :: before) cs after

theorem lowercaseFrom_append (before front rest : List Char) :
    tables.lowercaseFrom before (front ++ rest) =
      tables.lowercaseIn before front rest ++
        tables.lowercaseFrom (front.reverse ++ before) rest := by
  induction front generalizing before with
  | nil => rfl
  | cons c front ih =>
    rw [List.cons_append, lowercaseFrom, lowercaseIn, ih, List.append_assoc, List.reverse_cons,
      List.append_assoc, List.singleton_append]

theorem lowercaseIn_append (before front occurrence rest : List Char) :
    tables.lowercaseIn before (front ++ occurrence) rest =
      tables.lowercaseIn before front (occurrence ++ rest) ++
        tables.lowercaseIn (front.reverse ++ before) occurrence rest := by
  induction front generalizing before with
  | nil => rfl
  | cons c front ih =>
    rw [List.cons_append, lowercaseIn, lowercaseIn, ih, List.append_assoc, List.append_assoc,
      List.reverse_cons, List.append_assoc, List.singleton_append]

theorem sourceStart_spec (tables : CaseTables) (before text : List Char) (k : ℕ) :
    ∃ front rest, text = front ++ rest ∧ len front = tables.sourceStart before text k ∧
      len (tables.lowercaseIn before front rest) ≤ k := by
  induction text generalizing before k with
  | nil => exact ⟨[], [], rfl, rfl, Nat.zero_le k⟩
  | cons c cs ih =>
    rw [sourceStart]
    split
    · next hle =>
      obtain ⟨front, rest, rfl, hlen, hin⟩ := ih (c :: before) (k - len (tables.lowerAt before c cs))
      refine ⟨c :: front, rest, rfl, by rw [len_cons, hlen], ?_⟩
      rw [lowercaseIn, len_append]
      omega
    · exact ⟨[], c :: cs, rfl, rfl, Nat.zero_le k⟩

theorem sourceStop_spec {before text : List Char} {k : ℕ}
    (h : k ≤ len (tables.lowercaseFrom before text)) :
    ∃ front rest, text = front ++ rest ∧ len front = tables.sourceStop before text k ∧
      k ≤ len (tables.lowercaseIn before front rest) := by
  induction text generalizing before k with
  | nil => exact ⟨[], [], rfl, rfl, h⟩
  | cons c cs ih =>
    rw [lowercaseFrom, len_append] at h
    rw [sourceStop]
    split
    · next hzero => exact ⟨[], c :: cs, rfl, rfl, hzero.le⟩
    · have hk : k - len (tables.lowerAt before c cs) ≤
          len (tables.lowercaseFrom (c :: before) cs) := by omega
      obtain ⟨front, rest, rfl, hlen, hin⟩ := ih hk
      refine ⟨c :: front, rest, rfl, by rw [len_cons, hlen], ?_⟩
      rw [lowercaseIn, len_append]
      omega

theorem sourceStop_le (before text : List Char) (k : ℕ) :
    tables.sourceStop before text k ≤ len text := by
  induction text generalizing before k with
  | nil => exact le_rfl
  | cons c cs ih =>
    rw [sourceStop, len_cons]
    split
    · exact Nat.zero_le _
    · exact Nat.add_le_add_left (ih _ _) _

theorem sourceStart_le_sourceStop (before text : List Char) {j k : ℕ} (h : j ≤ k) :
    tables.sourceStart before text j ≤ tables.sourceStop before text k := by
  induction text generalizing before j k with
  | nil => exact le_rfl
  | cons c cs ih =>
    have hpos : 0 < len (tables.lowerAt before c cs) :=
      length_encode_pos (lowerAt_ne_nil tables before c cs)
    rw [sourceStart, sourceStop]
    split
    · rw [if_neg (by omega)]
      exact Nat.add_le_add_left (ih _ (Nat.sub_le_sub_right h _)) _
    · exact Nat.zero_le _

/-- **An occurrence in the lowercase** comes from what stands between the two positions of the text. -/
theorem exists_source {p text front : List Char} (h : front ++ p <+: tables.lowercase text) :
    ∃ before occurrence rest, text = before ++ occurrence ++ rest ∧
      len before = tables.sourceStart [] text (len front) ∧
      len (before ++ occurrence) = tables.sourceStop [] text (len front + len p) ∧
      p <:+: tables.lowercaseIn before.reverse occurrence rest := by
  have hle : len front + len p ≤ len (tables.lowercase text) := by
    rw [← len_append]
    exact len_le_of_isPrefix h
  obtain ⟨before, _, hbefore, hstart, hlow⟩ := sourceStart_spec tables [] text (len front)
  obtain ⟨upper, rest, hupper, hstop, hhigh⟩ := sourceStop_spec hle
  have hin : len before ≤ len upper := by
    rw [hstart, hstop]
    exact sourceStart_le_sourceStop [] text (Nat.le_add_right _ _)
  obtain ⟨occurrence, rfl⟩ := prefix_of_len_le ⟨_, hbefore.symm⟩ ⟨_, hupper.symm⟩ hin
  refine ⟨before, occurrence, rest, hupper, hstart, hstop, ?_⟩
  obtain rfl := List.append_cancel_left
    (hbefore.symm.trans (hupper.trans (List.append_assoc before occurrence rest)))
  have hall : lowercaseIn tables [] (before ++ occurrence) rest <+: tables.lowercase text := by
    rw [hupper, lowercase, lowercaseFrom_append]
    exact List.prefix_append _ _
  have hpair := prefix_of_len_le h hall (by rwa [len_append])
  rw [lowercaseIn_append, List.append_nil] at hpair hall
  -- what is before the occurrence becomes no more than what is before the match
  obtain ⟨skipped, rfl⟩ := prefix_of_len_le ((List.prefix_append _ _).trans hall)
    ((List.prefix_append _ _).trans h) hlow
  rw [List.append_assoc, List.prefix_append_right_inj] at hpair
  exact (List.suffix_append skipped p).isInfix.trans hpair.isInfix

/-- In ASCII it is at the same position. -/
theorem sourceStart_of_ascii {before text : List Char} (h : ∀ c ∈ text, IsAscii c) {k : ℕ}
    (hk : k ≤ len text) : tables.sourceStart before text k = k := by
  induction text generalizing before k with
  | nil => exact (Nat.le_zero.mp hk).symm
  | cons c cs ih =>
    obtain ⟨hc, hrest⟩ := List.forall_mem_cons.mp h
    rw [len_cons, hc.utf8Size_eq] at hk
    rw [sourceStart, len_lowerAt_of_ascii hc, hc.utf8Size_eq]
    split
    · rw [ih hrest (by omega)]
      omega
    · omega

theorem sourceStop_of_ascii {before text : List Char} (h : ∀ c ∈ text, IsAscii c) {k : ℕ}
    (hk : k ≤ len text) : tables.sourceStop before text k = k := by
  induction text generalizing before k with
  | nil => exact (Nat.le_zero.mp hk).symm
  | cons c cs ih =>
    obtain ⟨hc, hrest⟩ := List.forall_mem_cons.mp h
    rw [len_cons, hc.utf8Size_eq] at hk
    rw [sourceStop, len_lowerAt_of_ascii hc, hc.utf8Size_eq]
    split
    · omega
    · rw [ih hrest (by omega)]
      omega

/-- The tables, as far as the characters that become ASCII in lowercase. -/
def onlyAscii : CaseTables where
  toLowercase c :=
    if IsAscii c then [c.toLower]
    else if c = '\u212A' then ['k']
    else if c = 'İ' then ['i', '\u0307']
    else if c = 'Σ' then ['σ']
    else [c]
  endsWord _ _ := false
  toLowercase_ne_nil c := by split_ifs <;> simp
  toLowercase_of_ascii c h := if_pos h
  toLowercase_kelvin := rfl
  toLowercase_dotted := rfl
  not_isAscii c h hkelvin hdotted d hd := by
    rw [if_neg h, if_neg hkelvin, if_neg hdotted] at hd
    split_ifs at hd
    · rw [List.mem_singleton.mp hd]
      decide
    · rwa [List.mem_singleton.mp hd]
  toLowercase_of_mem c d hd := by
    split_ifs at hd with hascii hkelvin hdotted hsigma
    · obtain rfl := List.mem_singleton.mp hd
      rw [if_pos hascii.toLower, hascii.toLower_toLower]
    · obtain rfl := List.mem_singleton.mp hd
      rfl
    · rcases List.mem_pair.mp hd with rfl | rfl <;> rfl
    · obtain rfl := List.mem_singleton.mp hd
      rfl
    · obtain rfl := List.mem_singleton.mp hd
      simp [hascii, hkelvin, hdotted, hsigma]
  toLowercase_sigma := rfl
  toLowercase_finalSigma := rfl

end CaseTables

end MeetilyLocal
