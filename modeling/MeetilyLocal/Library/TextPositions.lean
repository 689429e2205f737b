import MeetilyLocal.Library.Text
import Mathlib.Data.List.DropRight

/-!
# Positions in a text

A position in a text is a number of UTF-8 bytes, as in a Rust `String`; only those between two
characters can be sliced at. `Utf8.upTo` is the text before a position, `Utf8.floorBoundary` goes
back from a position to the nearest one that can be sliced at, and `find` is the position of the
first occurrence of one text in another. Two prefixes of a text are compared by their lengths
(`Utf8.prefix_of_len_le`).

`find_append` is about a search that does not look at the start of the text, and `earliest` is the
position of the first occurrence of any of several texts. `rfind` is the position of the last one.

The positions of the characters are `charIndices`; between two of them, and the end, a text can be
sliced (`sliceAt?_eq_some`).
-/

namespace MeetilyLocal

namespace Utf8

/-- `String::len` -/
def len (text : List Char) : ℕ := (encode text).length

/-- The characters that end within the first `k` bytes. -/
def upTo : List Char → ℕ → List Char
  | [], _ => []
  | c :: cs, k => if c.utf8Size ≤ k then c :: upTo cs (k - c.utf8Size) else []

/-- The characters after those that end within the first `k` bytes. -/
def dropUpTo (text : List Char) (k : ℕ) : List Char := text.drop (upTo text k).length

/-- The last position at or before `k` that stands between two characters: the position is moved
back one byte at a time. -/
def floorBoundary (text : List Char) : ℕ → ℕ
  | 0 => 0
  | k + 1 => if IsCharBoundary (encode text) (k + 1) then k + 1 else floorBoundary text k

@[simp]
theorem len_nil : len [] = 0 := rfl

@[simp]
theorem len_append (text text' : List Char) : len (text ++ text') = len text + len text' := by
  simp [len]

@[simp]
theorem len_cons (c : Char) (cs : List Char) : len (c :: cs) = c.utf8Size + len cs := by
  rw [len, encode, List.flatMap_cons, List.length_append, String.length_utf8EncodeChar]
  rfl

theorem len_eq_zero {text : List Char} : len text = 0 ↔ text = [] := by
  cases text with
  | nil => simp
  | cons c cs =>
    have hpos := c.utf8Size_pos
    simp
    omega

theorem len_le_of_isPrefix {text text' : List Char} (h : text <+: text') : len text ≤ len text' := by
  obtain ⟨rest, rfl⟩ := h
  simp

/-- Of two prefixes of a text the shorter one is a prefix of the longer one. -/
theorem prefix_of_len_le {text p q : List Char} (hp : p <+: text) (hq : q <+: text)
    (h : len p ≤ len q) : p <+: q := by
  rcases List.prefix_or_prefix_of_prefix hp hq with hpq | ⟨rest, rfl⟩
  · exact hpq
  · obtain rfl : rest = [] := len_eq_zero.mp (by simp at h; omega)
    simp

theorem eq_of_isPrefix {p q : List Char} (hpq : p <+: q) (hqp : q <+: p) : p = q :=
  hpq.eq_of_length (le_antisymm hpq.length_le hqp.length_le)

theorem eq_of_len_eq {text p q : List Char} (hp : p <+: text) (hq : q <+: text)
    (h : len p = len q) : p = q :=
  eq_of_isPrefix (prefix_of_len_le hp hq h.le) (prefix_of_len_le hq hp h.ge)

/-! ## The text before a position -/

theorem upTo_isPrefix (text : List Char) (k : ℕ) : upTo text k <+: text := by
  induction text generalizing k with
  | nil => exact List.prefix_rfl
  | cons c cs ih =>
    rw [upTo]
    split
    · exact List.cons_prefix_cons.mpr ⟨rfl, ih _⟩
    · exact List.nil_prefix

theorem len_upTo_le (text : List Char) (k : ℕ) : len (upTo text k) ≤ k := by
  induction text generalizing k with
  | nil => exact Nat.zero_le k
  | cons c cs ih =>
    rw [upTo]
    split
    · next hc =>
      have hrest := ih (k - c.utf8Size)
      simp
      omega
    · exact Nat.zero_le k

/-- It is the longest prefix that ends there. -/
theorem prefix_upTo {text p : List Char} {k : ℕ} (hp : p <+: text) (h : len p ≤ k) :
    p <+: upTo text k := by
  induction text generalizing p k with
  | nil => exact hp
  | cons c cs ih =>
    cases p with
    | nil => exact List.nil_prefix
    | cons d p =>
      obtain ⟨rfl, hrest⟩ := List.cons_prefix_cons.mp hp
      rw [len_cons] at h
      rw [upTo, if_pos (by omega)]
      exact List.cons_prefix_cons.mpr ⟨rfl, ih hrest (by omega)⟩

theorem upTo_eq_of_isPrefix {text p : List Char} (hp : p <+: text) : upTo text (len p) = p :=
  eq_of_len_eq (upTo_isPrefix text _) hp
    ((len_upTo_le text _).antisymm (len_le_of_isPrefix (prefix_upTo hp le_rfl)))

theorem upTo_mono (text : List Char) {j k : ℕ} (h : j ≤ k) : upTo text j <+: upTo text k :=
  prefix_upTo (upTo_isPrefix text j) ((len_upTo_le text j).trans h)

/-- A longer text is the same up to a position in the shorter one. -/
theorem upTo_append {text : List Char} {k : ℕ} (h : k ≤ len text) (rest : List Char) :
    upTo (text ++ rest) k = upTo text k := by
  have hin : upTo (text ++ rest) k <+: text :=
    prefix_of_len_le (upTo_isPrefix _ k) (List.prefix_append text rest) ((len_upTo_le _ k).trans h)
  refine eq_of_isPrefix (prefix_upTo hin (len_upTo_le _ k)) (prefix_upTo ?_ (len_upTo_le text k))
  exact (upTo_isPrefix text k).trans (List.prefix_append text rest)

theorem upTo_append_dropUpTo (text : List Char) (k : ℕ) :
    upTo text k ++ dropUpTo text k = text := by
  conv_rhs => rw [← List.take_append_drop (upTo text k).length text]
  rw [dropUpTo, ← List.prefix_iff_eq_take.mp (upTo_isPrefix text k)]

theorem upTo_len_upTo (text : List Char) (k : ℕ) : upTo text (len (upTo text k)) = upTo text k :=
  upTo_eq_of_isPrefix (upTo_isPrefix text k)

theorem upTo_upTo {text : List Char} {j k : ℕ} (h : j ≤ k) :
    upTo (upTo text k) j = upTo text j := by
  refine eq_of_isPrefix (prefix_upTo ?_ (len_upTo_le _ j)) ?_
  · exact (upTo_isPrefix _ j).trans (upTo_isPrefix text k)
  · exact prefix_upTo (upTo_mono text h) (len_upTo_le text j)

theorem dropUpTo_upTo (text : List Char) (k : ℕ) : dropUpTo (upTo text k) k = [] := by
  have hsplit := upTo_append_dropUpTo (upTo text k) k
  rw [upTo_upTo le_rfl] at hsplit
  exact List.append_right_eq_self.mp hsplit

/-- The positions that can be sliced at are the lengths of the prefixes. -/
theorem isCharBoundary_iff {text : List Char} {k : ℕ} (hk : k ≤ len text) :
    IsCharBoundary (encode text) k ↔ len (upTo text k) = k := by
  rw [← decode_take_isSome_iff text hk]
  refine ⟨fun hsome => ?_, fun hlen => ?_⟩
  · obtain ⟨chars, hchars⟩ := Option.isSome_iff_exists.mp hsome
    obtain ⟨n, -, hn⟩ := exists_take_of_decode_take hchars
    have hlen : len (text.take n) = k := by
      rw [len, hn, List.length_take]
      exact Nat.min_eq_left hk
    rw [← hlen, upTo_eq_of_isPrefix (List.take_prefix n text)]
  · obtain ⟨rest, hrest⟩ := upTo_isPrefix text k
    have htake : (encode text).take k = encode (upTo text k) := by
      have hsplit : encode text = encode (upTo text k) ++ encode rest := by
        rw [← encode_append, hrest]
      rw [hsplit]
      exact List.take_left' hlen
    rw [htake, decode_encode]
    rfl

theorem floorBoundary_eq {text : List Char} {k : ℕ} (hk : k ≤ len text) :
    floorBoundary text k = len (upTo text k) := by
  induction k with
  | zero => exact (Nat.le_zero.mp (len_upTo_le text 0)).symm
  | succ k ih =>
    rw [floorBoundary]
    split
    · next hboundary => exact ((isCharBoundary_iff hk).mp hboundary).symm
    · next hnot =>
      have hle := len_upTo_le text (k + 1)
      have hne : len (upTo text (k + 1)) ≠ k + 1 := mt (isCharBoundary_iff hk).mpr hnot
      rw [ih (by omega)]
      refine congrArg len (eq_of_isPrefix (upTo_mono text (Nat.le_succ k)) ?_)
      exact prefix_upTo (upTo_isPrefix text _) (by omega)

/-! ## The positions of the characters -/

/-- The characters of a text, each with its position, where the text itself is at `k`. -/
def charIndicesFrom : ℕ → List Char → List (ℕ × Char)
  | _, [] => []
  | k, c :: cs => (k, c) :: charIndicesFrom (k + c.utf8Size) cs

/-- `str::char_indices` -/
def charIndices (text : List Char) : List (ℕ × Char) := charIndicesFrom 0 text

/-- The positions between which a text can be sliced: where its characters start, and its end. -/
def positionsFrom (k : ℕ) (text : List Char) : List ℕ :=
  (charIndicesFrom k text).map Prod.fst ++ [k + len text]

theorem positionsFrom_cons (k : ℕ) (c : Char) (cs : List Char) :
    positionsFrom k (c :: cs) = k :: positionsFrom (k + c.utf8Size) cs := by
  simp [positionsFrom, charIndicesFrom, Nat.add_assoc]

theorem length_positionsFrom (k : ℕ) (text : List Char) :
    (positionsFrom k text).length = text.length + 1 := by
  induction text generalizing k with
  | nil => rfl
  | cons c cs ih => rw [positionsFrom_cons, List.length_cons, ih, List.length_cons]

/-- The `i`-th position is that after `i` characters. -/
theorem getElem?_positionsFrom (k : ℕ) {text : List Char} {i : ℕ} (h : i ≤ text.length) :
    (positionsFrom k text)[i]? = some (k + len (text.take i)) := by
  induction text generalizing k i with
  | nil =>
    obtain rfl : i = 0 := Nat.le_zero.mp h
    rfl
  | cons c cs ih =>
    rw [positionsFrom_cons]
    cases i with
    | zero => rfl
    | succ i =>
      rw [List.getElem?_cons_succ, ih _ (by simpa using h), List.take_succ_cons, len_cons,
        Nat.add_assoc]

/-- As many positions are before that after `i` characters. -/
theorem length_takeWhile_positionsFrom (k : ℕ) {text : List Char} {i : ℕ} (h : i ≤ text.length) :
    ((positionsFrom k text).takeWhile (· < k + len (text.take i))).length = i := by
  induction text generalizing k i with
  | nil =>
    obtain rfl : i = 0 := Nat.le_zero.mp h
    simp [positionsFrom, charIndicesFrom]
  | cons c cs ih =>
    rw [positionsFrom_cons]
    cases i with
    | zero => simp
    | succ i =>
      have hpos := c.utf8Size_pos
      rw [List.take_succ_cons, len_cons, ← Nat.add_assoc,
        List.takeWhile_cons_of_pos (by simp; omega), List.length_cons, ih _ (by simpa using h)]

/-! ## Slicing -/

/-- `&text[lo..hi]`; none where it panics. -/
def sliceAt? (text : List Char) (lo hi : ℕ) : Option (List Char) :=
  if lo ≤ hi ∧ IsCharBoundary (encode text) lo ∧ IsCharBoundary (encode text) hi then
    some ((upTo text hi).drop (upTo text lo).length)
  else none

theorem upTo_len_take (text : List Char) (i : ℕ) : upTo text (len (text.take i)) = text.take i :=
  upTo_eq_of_isPrefix (List.take_prefix i text)

theorem isCharBoundary_len_take (text : List Char) (i : ℕ) :
    IsCharBoundary (encode text) (len (text.take i)) := by
  rw [isCharBoundary_iff (len_le_of_isPrefix (List.take_prefix i text)), upTo_len_take]

/-- **A text can be sliced** between any two of its characters. -/
theorem sliceAt?_eq_some {text : List Char} {i j : ℕ} (hij : i ≤ j) (hj : j ≤ text.length) :
    sliceAt? text (len (text.take i)) (len (text.take j)) = some ((text.take j).drop i) := by
  have hle : len (text.take i) ≤ len (text.take j) :=
    len_le_of_isPrefix (List.take_prefix_take_left hij)
  rw [sliceAt?, if_pos ⟨hle, isCharBoundary_len_take text i, isCharBoundary_len_take text j⟩,
    upTo_len_take, upTo_len_take, List.length_take_of_le (hij.trans hj)]

end Utf8

/-! ## Searching -/

open Utf8

/-- `str::find`: the position of the first occurrence -/
def find (needle : List Char) : List Char → Option ℕ
  | [] => if needle = [] then some 0 else none
  | c :: cs =>
    if needle <+: c :: cs then some 0 else (find needle cs).map (· + c.utf8Size)

/-- The position of the first occurrence of any of several texts. -/
def earliest (needles : List (List Char)) (text : List Char) : Option ℕ :=
  (needles.filterMap fun needle => find needle text).min?

/-- An occurrence that is found. -/
theorem exists_of_find {needle text : List Char} {k : ℕ} (h : find needle text = some k) :
    ∃ before, before ++ needle <+: text ∧ len before = k := by
  induction text generalizing k with
  | nil =>
    rw [find] at h
    split at h
    · next hnil =>
      cases h
      exact ⟨[], by simp [hnil], rfl⟩
    · cases h
  | cons c cs ih =>
    rw [find] at h
    split at h
    · next hprefix =>
      cases h
      exact ⟨[], by simpa using hprefix, rfl⟩
    · obtain ⟨j, hj, rfl⟩ := Option.map_eq_some_iff.mp h
      obtain ⟨before, hbefore, rfl⟩ := ih hj
      exact ⟨c :: before, List.cons_prefix_cons.mpr ⟨rfl, hbefore⟩, by simp [Nat.add_comm]⟩

/-- The one that is found is the first one. -/
theorem exists_find_le {needle text before : List Char} (h : before ++ needle <+: text) :
    ∃ k, find needle text = some k ∧ k ≤ len before := by
  induction text generalizing before with
  | nil =>
    obtain ⟨rfl, rfl⟩ := List.append_eq_nil_iff.mp (List.prefix_nil.mp h)
    exact ⟨0, by simp [find], Nat.zero_le _⟩
  | cons c cs ih =>
    rw [find]
    split
    · exact ⟨0, rfl, Nat.zero_le _⟩
    · next hnot =>
      cases before with
      | nil => exact absurd (by simpa using h) hnot
      | cons d before =>
        obtain ⟨rfl, hrest⟩ := List.cons_prefix_cons.mp h
        obtain ⟨k, hk, hle⟩ := ih hrest
        exact ⟨k + d.utf8Size, by simp [hk], by simp; omega⟩

/-- A text that starts with it. -/
theorem find_of_isPrefix {needle text : List Char} (h : needle <+: text) : find needle text = some 0 := by
  cases text with
  | nil => rw [find, if_pos (List.prefix_nil.mp h)]
  | cons c cs => rw [find, if_pos h]

theorem find_eq_none_iff {needle text : List Char} :
    find needle text = none ↔ ¬needle <:+: text := by
  refine ⟨fun hnone hin => ?_, fun hnot => ?_⟩
  · obtain ⟨before, rest, rfl⟩ := hin
    obtain ⟨k, hk, -⟩ := exists_find_le (List.prefix_append (before ++ needle) rest)
    rw [hk] at hnone
    cases hnone
  · rcases hfind : find needle text with _ | k
    · rfl
    · obtain ⟨before, ⟨rest, hrest⟩, -⟩ := exists_of_find hfind
      exact absurd ⟨before, rest, hrest⟩ hnot

/-- A search that begins before the first occurrence finds it. -/
theorem find_append {needle text rest : List Char}
    (h : ∀ before, before ++ needle <+: text ++ rest → len text ≤ len before) :
    find needle (text ++ rest) = (find needle rest).map (len text + ·) := by
  induction text with
  | nil => simp
  | cons c cs ih =>
    have hnot : ¬needle <+: c :: (cs ++ rest) := fun hprefix => by
      have hlen := h [] (by simpa using hprefix)
      have hpos := c.utf8Size_pos
      simp at hlen
      omega
    rw [List.cons_append, find, if_neg hnot, ih, Option.map_map]
    · refine congrArg₂ Option.map (funext fun k => ?_) rfl
      simp
      omega
    · intro before hbefore
      have hlen := h (c :: before) (List.cons_prefix_cons.mpr ⟨rfl, hbefore⟩)
      simpa using hlen

/-- `str::rfind`: the position of the last occurrence -/
def rfind (needle : List Char) : List Char → Option ℕ
  | [] => if needle = [] then some 0 else none
  | c :: cs =>
    match rfind needle cs with
    | some k => some (k + c.utf8Size)
    | none => if needle <+: c :: cs then some 0 else none

theorem exists_of_rfind {needle text : List Char} {k : ℕ} (h : rfind needle text = some k) :
    ∃ before, before ++ needle <+: text ∧ len before = k := by
  induction text generalizing k with
  | nil =>
    rw [rfind] at h
    split at h
    · next hnil =>
      cases h
      exact ⟨[], by simp [hnil], rfl⟩
    · cases h
  | cons c cs ih =>
    rw [rfind] at h
    split at h
    · next j hj =>
      cases h
      obtain ⟨before, hbefore, rfl⟩ := ih hj
      exact ⟨c :: before, List.cons_prefix_cons.mpr ⟨rfl, hbefore⟩, by simp [Nat.add_comm]⟩
    · split at h
      · next hprefix =>
        cases h
        exact ⟨[], by simpa using hprefix, rfl⟩
      · cases h

/-- The one that is found is the last one. -/
theorem exists_le_rfind {needle text before : List Char} (h : before ++ needle <+: text) :
    ∃ k, rfind needle text = some k ∧ len before ≤ k := by
  induction text generalizing before with
  | nil =>
    obtain ⟨rfl, rfl⟩ := List.append_eq_nil_iff.mp (List.prefix_nil.mp h)
    exact ⟨0, by simp [rfind], le_rfl⟩
  | cons c cs ih =>
    rw [rfind]
    cases before with
    | nil =>
      rcases hrest : rfind needle cs with _ | k
      · exact ⟨0, if_pos h, le_rfl⟩
      · exact ⟨k + c.utf8Size, rfl, Nat.zero_le _⟩
    | cons d before =>
      obtain ⟨rfl, hrest⟩ := List.cons_prefix_cons.mp h
      obtain ⟨k, hk, hle⟩ := ih hrest
      exact ⟨k + d.utf8Size, by rw [hk], by rw [len_cons]; omega⟩

theorem rfind_eq_none_iff {needle text : List Char} :
    rfind needle text = none ↔ ¬needle <:+: text := by
  refine ⟨fun hnone hin => ?_, fun hnot => ?_⟩
  · obtain ⟨before, rest, rfl⟩ := hin
    obtain ⟨k, hk, -⟩ := exists_le_rfind (List.prefix_append (before ++ needle) rest)
    rw [hk] at hnone
    cases hnone
  · rcases hfind : rfind needle text with _ | k
    · rfl
    · obtain ⟨before, ⟨rest, hrest⟩, -⟩ := exists_of_rfind hfind
      exact absurd ⟨before, rest, hrest⟩ hnot

theorem findSome?_congr {α β : Type} {f g : α → Option β} {xs : List α}
    (h : ∀ x ∈ xs, f x = g x) : xs.findSome? f = xs.findSome? g := by
  induction xs with
  | nil => rfl
  | cons x xs ih =>
    rw [List.findSome?_cons, List.findSome?_cons, h x List.mem_cons_self,
      ih fun y hy => h y (List.mem_cons_of_mem x hy)]

theorem earliest_eq_none_iff {needles : List (List Char)} {text : List Char} :
    earliest needles text = none ↔ ∀ needle ∈ needles, find needle text = none := by
  simp [earliest, List.min?_eq_none_iff]

theorem earliest_eq_some_iff {needles : List (List Char)} {text : List Char} {k : ℕ} :
    earliest needles text = some k ↔ (∃ needle ∈ needles, find needle text = some k) ∧
      ∀ needle ∈ needles, ∀ j, find needle text = some j → k ≤ j := by
  rw [earliest, List.min?_eq_some_iff]
  refine and_congr (by simp) ⟨fun h needle hneedle j hj => ?_, fun h j hj => ?_⟩
  · exact h j (List.mem_filterMap.mpr ⟨needle, hneedle, hj⟩)
  · obtain ⟨needle, hneedle, hfind⟩ := List.mem_filterMap.mp hj
    exact h needle hneedle j hfind

/-! ## Trimming the end -/

/-- `str::trim_end` -/
def trimEnd (text : List Char) : List Char := text.rdropWhile isWhiteSpace

theorem trimEnd_isPrefix (text : List Char) : trimEnd text <+: text := List.rdropWhile_prefix _ text

/-- Exactly white space at the end makes no difference. -/
theorem trimEnd_append_iff {text rest : List Char} :
    trimEnd (text ++ rest) = trimEnd text ↔ ∀ c ∈ rest, isWhiteSpace c = true := by
  induction rest using List.reverseRecOn with
  | nil => simp
  | append_singleton rest c ih =>
    rw [← List.append_assoc, trimEnd]
    by_cases hc : isWhiteSpace c = true
    · rw [List.rdropWhile_concat_pos _ _ _ hc, ← trimEnd, ih]
      simp [hc, or_imp, forall_and]
    · rw [List.rdropWhile_concat_neg _ _ _ hc]
      refine ⟨fun heq => ?_, fun hall => absurd (hall c (by simp)) hc⟩
      have hlen := (trimEnd_isPrefix text).length_le
      rw [← heq, List.length_append, List.length_append, List.length_singleton] at hlen
      omega

/-! ## Trimming both ends -/

/-- `str::trim_matches` -/
def trimBy (p : Char → Bool) (text : List Char) : List Char := (text.dropWhile p).rdropWhile p

theorem trim_eq_trimBy (text : List Char) : trim text = trimBy isWhiteSpace text := rfl

theorem head?_trimBy (p : Char → Bool) (text : List Char) :
    (trimBy p text).head? = (text.dropWhile p).head? := by
  have hnot := List.head?_dropWhile_not p text
  rw [trimBy]
  rcases hdrop : text.dropWhile p with _ | ⟨c, rest⟩
  · rfl
  · have hne : (c :: rest).rdropWhile p ≠ [] := fun hnil => by
      have hc := List.rdropWhile_eq_nil_iff.mp hnil c List.mem_cons_self
      have hfalse : p c = false := by simpa [hdrop] using hnot
      rw [hc] at hfalse
      cases hfalse
    obtain ⟨d, more, hcons⟩ := List.exists_cons_of_ne_nil hne
    have hin := List.rdropWhile_prefix p (c :: rest)
    rw [hcons, List.cons_prefix_cons] at hin
    rw [hcons, hin.1]
    rfl

/-- Nothing is left to trim at the start. -/
theorem not_of_head?_trimBy {p : Char → Bool} {text : List Char} {c : Char}
    (h : (trimBy p text).head? = some c) : p c = false := by
  have hdrop := List.head?_dropWhile_not p text
  rw [← head?_trimBy, h] at hdrop
  exact hdrop

/-- Nothing is left to trim at the end. -/
theorem not_of_getLast?_trimBy {p : Char → Bool} {text : List Char} {c : Char}
    (h : (trimBy p text).getLast? = some c) : p c = false := by
  have hne : (text.dropWhile p).rdropWhile p ≠ [] := by
    rintro hnil
    simp [trimBy, hnil] at h
  have hnot := List.rdropWhile_last_not p (text.dropWhile p) hne
  rw [trimBy, List.getLast?_eq_some_getLast hne] at h
  rwa [Option.some.inj h, Bool.not_eq_true] at hnot

/-- What stays as it is: a text with nothing to trim at either end. -/
theorem trimBy_eq_self_iff {p : Char → Bool} {text : List Char} :
    trimBy p text = text ↔ (∀ c, text.head? = some c → p c = false) ∧
      ∀ c, text.getLast? = some c → p c = false := by
  refine ⟨fun h => ?_, fun ⟨hhead, hlast⟩ => ?_⟩
  · rw [← h]
    exact ⟨fun c => not_of_head?_trimBy, fun c => not_of_getLast?_trimBy⟩
  · have hstart : text.dropWhile p = text := by
      cases text with
      | nil => rfl
      | cons c rest => exact List.dropWhile_cons_of_neg (by simp [hhead c rfl])
    rw [trimBy, hstart, List.rdropWhile_eq_self_iff]
    exact fun hne => by simp [hlast _ (List.getLast?_eq_some_getLast hne)]

theorem trimBy_trimBy (p : Char → Bool) (text : List Char) :
    trimBy p (trimBy p text) = trimBy p text :=
  trimBy_eq_self_iff.mpr ⟨fun _ => not_of_head?_trimBy, fun _ => not_of_getLast?_trimBy⟩

theorem rdropWhile_append_of_all {p : Char → Bool} {text rest : List Char}
    (h : ∀ c ∈ rest, p c = true) : (text ++ rest).rdropWhile p = text.rdropWhile p := by
  induction rest using List.reverseRecOn with
  | nil => rw [List.append_nil]
  | append_singleton rest c ih =>
    obtain ⟨hall, hc⟩ := List.forall_mem_append.mp h
    rw [← List.append_assoc, List.rdropWhile_concat_pos _ _ _ (hc c (List.mem_singleton_self c)),
      ih hall]

/-- What is trimmed ends with the last character that is kept. -/
theorem exists_trimBy_eq {p : Char → Bool} {text rest : List Char} {d : Char} (hd : p d = false)
    (hrest : ∀ c ∈ rest, p c = true) : ∃ front, trimBy p (text ++ d :: rest) = front ++ [d] := by
  have hstart : ∃ front, (text ++ d :: rest).dropWhile p = front ++ d :: rest := by
    induction text with
    | nil => exact ⟨[], List.dropWhile_cons_of_neg (by simp [hd])⟩
    | cons c text ih =>
      by_cases hc : p c = true
      · rw [List.cons_append, List.dropWhile_cons_of_pos hc]
        exact ih
      · exact ⟨c :: text, List.dropWhile_cons_of_neg hc⟩
  obtain ⟨front, hfront⟩ := hstart
  refine ⟨front, ?_⟩
  rw [trimBy, hfront, List.append_cons, rdropWhile_append_of_all hrest]
  exact List.rdropWhile_concat_neg _ _ _ (by simp [hd])

theorem length_trimBy_le (p : Char → Bool) (text : List Char) :
    (trimBy p text).length ≤ text.length :=
  (List.rdropWhile_prefix p _).length_le.trans (List.dropWhile_suffix p).length_le

theorem trimBy_eq_of_length_le {p : Char → Bool} {text : List Char}
    (h : text.length ≤ (trimBy p text).length) : trimBy p text = text := by
  have hin := List.rdropWhile_prefix p (text.dropWhile p)
  have hdrop : text.dropWhile p = text :=
    (List.dropWhile_suffix p).eq_of_length_le (h.trans hin.length_le)
  rw [trimBy, hdrop] at h ⊢
  exact (List.rdropWhile_prefix p text).eq_of_length_le h

end MeetilyLocal
