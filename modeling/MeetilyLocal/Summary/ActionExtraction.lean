import MeetilyLocal.Library.Json
import MeetilyLocal.Library.TextPositions

/-!
# The array in the answer of a model

The embedding of `find_json_array` (`summary/action_extraction.rs`), which finds the array of action items
in what a model says around it. It goes through the bytes from the first `[` on, counts the square
brackets that are open, and skips what is in strings.

A JSON text passes the scan without a trace (`Passes`, `passes_of_isNested`), so that the bracket that
closes the array is the first one after which none is open (`findJsonArray_eq`). The count is an `i32`,
which an array nested deeper than that exceeds (`not_findJsonArray_deep`).
-/

namespace MeetilyLocal

namespace ActionExtraction

open Json Utf8

/-! ## The code -/

/-- Where the scan stands. -/
structure Scanner where
  depth : ℤ
  inString : Bool
  escaped : Bool

/-- A sum of `i32`: one that does not fit panics where overflow is checked, and wraps elsewhere. -/
def addDepth (overflowChecks : Bool) (depth n : ℤ) : Option ℤ :=
  if -2 ^ 31 ≤ depth + n ∧ depth + n < 2 ^ 31 then some (depth + n)
  else if overflowChecks then none
  else some (Int.bmod (depth + n) (2 ^ 32))

/-- The scan of the bytes from index `i` on: the index of the bracket that closes the array, if there is
one. None outside where it panics. -/
def scanFrom (overflowChecks : Bool) : Scanner → ℕ → List UInt8 → Option (Option ℕ)
  | _, _, [] => some none
  | s, i, c :: bytes =>
    if s.inString then
      if s.escaped then scanFrom overflowChecks { s with escaped := false } (i + 1) bytes
      else if c = 0x5C then scanFrom overflowChecks { s with escaped := true } (i + 1) bytes
      else if c = 0x22 then scanFrom overflowChecks { s with inString := false } (i + 1) bytes
      else scanFrom overflowChecks s (i + 1) bytes
    else if c = 0x22 then scanFrom overflowChecks { s with inString := true } (i + 1) bytes
    else if c = 0x5B then
      match addDepth overflowChecks s.depth 1 with
      | none => none
      | some depth => scanFrom overflowChecks { s with depth := depth } (i + 1) bytes
    else if c = 0x5D then
      match addDepth overflowChecks s.depth (-1) with
      | none => none
      | some depth =>
        if depth = 0 then some (some i)
        else scanFrom overflowChecks { s with depth := depth } (i + 1) bytes
    else scanFrom overflowChecks s (i + 1) bytes

/-- Locate the first complete top-level `[...]` span. None outside where it panics. -/
def findJsonArray (overflowChecks : Bool) (text : List Char) : Option (Option (List Char)) :=
  match find ['['] text with
  | none => some none
  | some start =>
    match scanFrom overflowChecks ⟨0, false, false⟩ start ((encode text).drop start) with
    | none => none
    | some none => some none
    | some (some i) => (sliceAt? text start (i + 1)).map some

/-! ## Texts that the scan passes -/

variable {overflowChecks : Bool} {n : ℕ} {cs ds : List Char}

/-- Outside of strings and in an array, the scan passes a text in which brackets are open at most so
deep. -/
def Passes (overflowChecks : Bool) (n : ℕ) (cs : List Char) : Prop :=
  ∀ (d : ℤ) (i : ℕ) (bytes : List UInt8), 1 ≤ d → d + n < 2 ^ 31 →
    scanFrom overflowChecks ⟨d, false, false⟩ i (encode cs ++ bytes) =
      scanFrom overflowChecks ⟨d, false, false⟩ (i + len cs) bytes

theorem Passes.append (hc : Passes overflowChecks n cs) (hd : Passes overflowChecks n ds) :
    Passes overflowChecks n (cs ++ ds) := by
  intro d i bytes hpos hlt
  rw [encode_append, List.append_assoc, hc d i _ hpos hlt, hd d _ _ hpos hlt, len_append,
    Nat.add_assoc]

/-- Bytes other than quotes and square brackets are passed. -/
theorem scanFrom_inert {bytes : List UInt8} (h : ∀ b ∈ bytes, b ≠ 0x22 ∧ b ≠ 0x5B ∧ b ≠ 0x5D) (d : ℤ)
    (i : ℕ) (rest : List UInt8) :
    scanFrom overflowChecks ⟨d, false, false⟩ i (bytes ++ rest) =
      scanFrom overflowChecks ⟨d, false, false⟩ (i + bytes.length) rest := by
  induction bytes generalizing i with
  | nil => rfl
  | cons b bytes ih =>
    obtain ⟨⟨hquote, hopen, hclose⟩, hbytes⟩ := List.forall_mem_cons.mp h
    rw [List.cons_append, scanFrom, if_neg Bool.false_ne_true, if_neg hquote, if_neg hopen,
      if_neg hclose, ih hbytes, List.length_cons, Nat.add_assoc, Nat.add_comm 1]

/-- In a string, bytes other than quotes and backslashes are passed. -/
theorem scanFrom_quoted (overflowChecks : Bool) {bytes : List UInt8} (h : ∀ b ∈ bytes, b ≠ 0x5C ∧ b ≠ 0x22) (d : ℤ)
    (i : ℕ) (rest : List UInt8) :
    scanFrom overflowChecks ⟨d, true, false⟩ i (bytes ++ rest) =
      scanFrom overflowChecks ⟨d, true, false⟩ (i + bytes.length) rest := by
  induction bytes generalizing i with
  | nil => rfl
  | cons b bytes ih =>
    obtain ⟨⟨hescape, hquote⟩, hbytes⟩ := List.forall_mem_cons.mp h
    rw [List.cons_append, scanFrom, if_pos rfl, if_neg Bool.false_ne_true, if_neg hescape,
      if_neg hquote, ih hbytes, List.length_cons, Nat.add_assoc, Nat.add_comm 1]

theorem encode_cons (c : Char) (cs : List Char) :
    encode (c :: cs) = String.utf8EncodeChar c ++ encode cs := List.flatMap_cons

/-- The byte of an ASCII character that is not in a text is not in its bytes. -/
theorem ne_of_mem_encode {byte : UInt8} (h : byte ∈ encode cs) {c : Char} (hc : c ∉ cs)
    (hascii : c.toNat < 128) : byte ≠ UInt8.ofNat c.toNat := by
  rintro rfl
  have hnat : (UInt8.ofNat c.toNat).toNat = c.toNat := by
    rw [UInt8.toNat_ofNat']
    omega
  obtain ⟨d, hd, heq⟩ := exists_mem_of_mem_encode h (by omega)
  exact hc (Char.toNat_inj.mp (heq.trans hnat) ▸ hd)

theorem passes_of_forall (h : ∀ c ∈ cs, c ≠ '"' ∧ c ≠ '[' ∧ c ≠ ']') :
    Passes overflowChecks n cs := by
  intro d i bytes _ _
  refine scanFrom_inert (fun b hb => ⟨?_, ?_, ?_⟩) d i bytes
  · exact ne_of_mem_encode hb (c := '"') (fun hmem => (h _ hmem).1 rfl) (by decide)
  · exact ne_of_mem_encode hb (c := '[') (fun hmem => (h _ hmem).2.1 rfl) (by decide)
  · exact ne_of_mem_encode hb (c := ']') (fun hmem => (h _ hmem).2.2 rfl) (by decide)

theorem passes_of_inert (h : ∀ c ∈ cs, isInert c = true) : Passes overflowChecks n cs := by
  refine passes_of_forall fun c hc => ?_
  have hinert := h c hc
  simp only [isInert, Bool.and_eq_true, bne_iff_ne] at hinert
  obtain ⟨⟨⟨⟨hquote, -⟩, hopen⟩, -⟩, hclose⟩ := hinert
  exact ⟨hquote, hopen, hclose⟩

/-! ## Every JSON text is passed -/

/-- After a backslash the first byte of a character is skipped, and the others are no quotes. -/
theorem scanFrom_escaped (c : Char) (d : ℤ) (i : ℕ) (bytes : List UInt8) :
    scanFrom overflowChecks ⟨d, true, true⟩ i (String.utf8EncodeChar c ++ bytes) =
      scanFrom overflowChecks ⟨d, true, false⟩ (i + c.utf8Size) bytes := by
  obtain ⟨first, rest, hbytes⟩ := List.exists_cons_of_ne_nil (String.utf8EncodeChar_ne_nil (c := c))
  have hlength := String.length_utf8EncodeChar c
  rw [hbytes, List.length_cons] at hlength
  have hrest : ∀ b ∈ rest, b ≠ 0x5C ∧ b ≠ 0x22 := by
    intro b hb
    have hlarge : ¬b.toNat < 128 := fun hlt => by
      -- the character is its first byte
      have hmem : b ∈ String.utf8EncodeChar c := by simp [hbytes, hb]
      have hnat := toNat_eq_of_mem_utf8EncodeChar hmem hlt
      have hsize : c.utf8Size = 1 := Char.utf8Size_eq_one_iff.mpr
        (UInt32.le_iff_toNat_le.mpr (by show c.toNat ≤ 127; omega))
      have hpos := List.length_pos_of_mem hb
      omega
    constructor
    · rintro rfl
      exact hlarge (by decide)
    · rintro rfl
      exact hlarge (by decide)
  rw [hbytes, List.cons_append, scanFrom, if_pos rfl, if_pos rfl]
  show scanFrom overflowChecks ⟨d, true, false⟩ (i + 1) (rest ++ bytes) = _
  rw [scanFrom_quoted overflowChecks hrest, ← hlength, Nat.add_assoc, Nat.add_comm 1]

/-- A string body keeps the scan inside the string. -/
theorem scanFrom_of_isQuoted {body : List Char} (h : IsQuoted body) (d : ℤ) (i : ℕ)
    (bytes : List UInt8) :
    scanFrom overflowChecks ⟨d, true, false⟩ i (encode body ++ bytes) =
      scanFrom overflowChecks ⟨d, true, false⟩ (i + len body) bytes := by
  induction h generalizing i with
  | nil => rfl
  | @char c cs hquote hescape _ ih =>
    have hc : ∀ b ∈ encode [c], b ≠ 0x5C ∧ b ≠ 0x22 := fun b hb =>
      ⟨ne_of_mem_encode hb (c := '\\') (by simpa using hescape.symm) (by decide),
        ne_of_mem_encode hb (c := '"') (by simpa using hquote.symm) (by decide)⟩
    have hsingle : encode [c] = String.utf8EncodeChar c := List.flatMap_singleton _ _
    have hstep := scanFrom_quoted overflowChecks hc d i (encode cs ++ bytes)
    rw [hsingle, String.length_utf8EncodeChar] at hstep
    rw [encode_cons, List.append_assoc, hstep, ih, len_cons, Nat.add_assoc]
  | @escape c cs _ ih =>
    have hbackslash : String.utf8EncodeChar '\\' = [0x5C] := by decide
    rw [encode_cons, encode_cons, hbackslash, List.append_assoc, List.append_assoc,
      List.singleton_append, scanFrom, if_pos rfl, if_neg Bool.false_ne_true, if_pos rfl]
    show scanFrom overflowChecks ⟨d, true, true⟩ (i + 1) _ = _
    rw [scanFrom_escaped, ih, len_cons, len_cons]
    congr 1
    have hsize : ('\\' : Char).utf8Size = 1 := by decide
    omega

theorem passes_of_isString (h : IsString cs) : Passes overflowChecks n cs := by
  cases h with
  | @quoted body h =>
    intro d i bytes _ _
    have hquote : String.utf8EncodeChar '"' = [0x22] := by decide
    have hsize : ('"' : Char).utf8Size = 1 := by decide
    rw [encode_cons, encode_append, encode_cons, hquote, List.append_assoc, List.append_assoc,
      List.singleton_append, scanFrom, if_neg Bool.false_ne_true, if_pos rfl]
    show scanFrom overflowChecks ⟨d, true, false⟩ (i + 1) _ = _
    rw [scanFrom_of_isQuoted h.isQuoted, List.append_assoc, List.singleton_append, scanFrom, if_pos rfl,
      if_neg Bool.false_ne_true, if_neg (by decide), if_pos rfl]
    show scanFrom overflowChecks ⟨d, false, false⟩ _ bytes = _
    rw [len_cons, len_append, len_cons, len_nil, hsize]
    congr 1
    omega

theorem addDepth_eq (overflowChecks : Bool) {d k : ℤ} (hlow : -2 ^ 31 ≤ d + k) (hhigh : d + k < 2 ^ 31) :
    addDepth overflowChecks d k = some (d + k) := if_pos ⟨hlow, hhigh⟩

/-- The scan goes one deeper. -/
theorem scanFrom_open {d : ℤ} (hd : 0 ≤ d) (hlt : d + 1 < 2 ^ 31) (i : ℕ) (bytes : List UInt8) :
    scanFrom overflowChecks ⟨d, false, false⟩ i (0x5B :: bytes) =
      scanFrom overflowChecks ⟨d + 1, false, false⟩ (i + 1) bytes := by
  have hadd := addDepth_eq overflowChecks (by omega) hlt
  rw [scanFrom, if_neg Bool.false_ne_true, if_neg (by decide), if_pos rfl]
  simp only [hadd]

/-- The scan goes back by one, if the array is not the outermost one. -/
theorem scanFrom_close {d : ℤ} (hd : 0 ≤ d) (hlt : d < 2 ^ 31) (i : ℕ) (bytes : List UInt8) :
    scanFrom overflowChecks ⟨d + 1, false, false⟩ i (0x5D :: bytes) =
      if d = 0 then some (some i)
      else scanFrom overflowChecks ⟨d, false, false⟩ (i + 1) bytes := by
  have hback : d + 1 + -1 = d := by omega
  have hadd := addDepth_eq overflowChecks (d := d + 1) (k := -1) (by omega)
    (by omega)
  rw [scanFrom, if_neg Bool.false_ne_true, if_neg (by decide), if_neg (by decide), if_pos rfl]
  simp only [hadd, hback]

theorem encode_open : String.utf8EncodeChar '[' = [0x5B] := by decide

theorem encode_close : encode [']'] = [0x5D] := by decide

theorem passes_bracket (h : Passes overflowChecks n cs) :
    Passes overflowChecks (n + 1) ('[' :: (cs ++ [']'])) := by
  intro d i bytes hpos hlt
  push_cast at hlt
  have hsize : ('[' : Char).utf8Size = 1 := by decide
  have hsize' : (']' : Char).utf8Size = 1 := by decide
  rw [encode_cons, encode_append, encode_open, encode_close, List.append_assoc, List.append_assoc,
    List.singleton_append, scanFrom_open (by omega) (by omega), h (d + 1) _ _ (by omega) (by omega),
    List.singleton_append, scanFrom_close (by omega) (by omega), if_neg (by omega), len_cons,
    len_append, len_cons, len_nil, hsize, hsize']
  congr 1
  omega

theorem passes_commaSeparated {pieces : List (List Char)}
    (h : ∀ p ∈ pieces, Passes overflowChecks n p) : Passes overflowChecks n (commaSeparated pieces) := by
  induction pieces with
  | nil => exact passes_of_forall (by simp [commaSeparated])
  | cons piece pieces ih =>
    obtain ⟨hpiece, hrest⟩ := List.forall_mem_cons.mp h
    cases pieces with
    | nil => exact hpiece
    | cons piece' pieces =>
      have hcomma : Passes overflowChecks n [','] := passes_of_inert (by simp [isInert])
      exact hpiece.append (hcomma.append (ih hrest))

/-- **Every JSON text is passed**, as deep as its arrays are nested. -/
theorem passes_of_isNested (h : IsNested n cs) : Passes overflowChecks n cs := by
  have hwhite : ∀ {n : ℕ} {ws : List Char}, (∀ c ∈ ws, isWhitespace c = true) →
      Passes overflowChecks n ws := fun hws =>
    passes_of_inert fun c hc => isInert_of_isWhitespace (hws c hc)
  induction h with
  | literal h =>
    refine passes_of_inert (List.all_eq_true.mp ?_)
    simp only [List.mem_cons, List.not_mem_nil, or_false] at h
    rcases h with rfl | rfl | rfl <;> decide
  | number h => exact passes_of_inert h.isInert
  | string h => exact passes_of_isString h
  | array hws _ ih => exact passes_bracket ((hwhite hws).append (passes_commaSeparated ih))
  | @object n ws members hws hpad hname _ ih =>
    have hmembers : ∀ text ∈ members.map Member.text, Passes overflowChecks n text := by
      refine List.forall_mem_map.mpr fun m hm => ?_
      have hcolon : Passes overflowChecks n [':'] := passes_of_inert (by simp [isInert])
      have hpre := hwhite (n := n) fun c hc => hpad m hm c (List.mem_append_left _ hc)
      have hpost := hwhite (n := n) fun c hc => hpad m hm c (List.mem_append_right _ hc)
      exact ((hpre.append (passes_of_isString (hname m hm))).append hpost).append
        (hcolon.append (ih m hm))
    have hopen : Passes overflowChecks n ['{'] := passes_of_forall (by simp)
    have hclose : Passes overflowChecks n ['}'] := passes_of_forall (by simp)
    exact hopen.append (((hwhite hws).append (passes_commaSeparated hmembers)).append hclose)
  | pad hpre hpost _ ih => exact ((hwhite hpre).append ih).append (hwhite hpost)

/-! ## The array -/

/-- The first bracket. -/
theorem find_open (before : List Char) (h : '[' ∉ before) (rest : List Char) :
    find ['['] (before ++ '[' :: rest) = some (len before) := by
  rw [find_append, find, if_pos (List.cons_prefix_cons.mpr ⟨rfl, List.nil_prefix⟩)]
  · rfl
  · intro front hfront
    by_contra hlt
    have hin : front ++ ['['] <+: before := by
      refine prefix_of_len_le hfront (List.prefix_append before _) ?_
      have hsize : ('[' : Char).utf8Size = 1 := by decide
      rw [len_append, len_cons, len_nil, hsize]
      omega
    exact h (hin.subset (by simp))

/-- An array is found if what is in it passes. -/
theorem findJsonArray_of_passes {before body after : List Char} (hbefore : '[' ∉ before)
    (hbody : Passes overflowChecks n body) (hn : n + 1 < 2 ^ 31) :
    findJsonArray overflowChecks (before ++ '[' :: (body ++ [']']) ++ after) =
      some (some ('[' :: (body ++ [']']))) := by
  have hstart := find_open before hbefore (body ++ [']'] ++ after)
  have hdrop : (encode (before ++ '[' :: (body ++ [']']) ++ after)).drop (len before) =
      0x5B :: (encode body ++ (0x5D :: encode after)) := by
    have hlength : (encode before).length = len before := rfl
    rw [List.append_assoc, encode_append, ← hlength, List.drop_left, List.cons_append, encode_cons,
      encode_append, encode_append, encode_open, encode_close, List.append_assoc]
    rfl
  have hscan : scanFrom overflowChecks ⟨0, false, false⟩ (len before)
      (0x5B :: (encode body ++ (0x5D :: encode after))) =
        some (some (len before + 1 + len body)) := by
    have hone : (1 : ℤ) = 0 + 1 := rfl
    rw [scanFrom_open le_rfl (by omega), ← hone, hbody 1 _ _ le_rfl (by omega), hone,
      scanFrom_close le_rfl (by omega), if_pos rfl]
  -- the array ends behind the bracket that closes it
  have hend : len before + 1 + len body + 1 =
      len ((before ++ '[' :: (body ++ [']']) ++ after).take
        (before ++ '[' :: (body ++ [']'])).length) := by
    have hsize : ('[' : Char).utf8Size = 1 := by decide
    have hsize' : (']' : Char).utf8Size = 1 := by decide
    rw [List.take_left, len_append, len_cons, len_append, len_cons, len_nil, hsize, hsize']
    omega
  have hbegin : len before =
      len ((before ++ '[' :: (body ++ [']']) ++ after).take before.length) := by
    rw [List.append_assoc, List.take_left]
  have hslice : sliceAt? (before ++ '[' :: (body ++ [']']) ++ after) (len before)
      (len before + 1 + len body + 1) = some ('[' :: (body ++ [']'])) := by
    rw [hend, hbegin, sliceAt?_eq_some (by simp) (by simp), List.take_left, List.drop_left]
  have hfind : find ['['] (before ++ '[' :: (body ++ [']']) ++ after) = some (len before) := by
    rw [List.append_assoc, List.cons_append]
    exact hstart
  rw [findJsonArray, hfind]
  simp only [hdrop, hscan, hslice, Option.map_some]

/-- What is in an array passes. -/
theorem passes_elements {ws : List Char} {elements : List (List Char)}
    (hws : ∀ c ∈ ws, isWhitespace c = true) (helements : ∀ e ∈ elements, IsNested n e) :
    Passes overflowChecks n (ws ++ commaSeparated elements) :=
  (passes_of_inert fun c hc => isInert_of_isWhitespace (hws c hc)).append
    (passes_commaSeparated fun e he => passes_of_isNested (helements e he))

/-- **The array is found**: what is returned is the first array, whatever stands in it and behind it. -/
theorem findJsonArray_eq (overflowChecks : Bool) {before array after : List Char} {n : ℕ}
    (hbefore : '[' ∉ before) (harray : IsNestedArray n array) (hn : n < 2 ^ 31) :
    findJsonArray overflowChecks (before ++ array ++ after) = some (some array) := by
  cases harray with
  | intro hws helements =>
    exact findJsonArray_of_passes hbefore (passes_elements hws helements) hn

/-- So is any array of fewer than `2 ^ 31` characters. -/
theorem findJsonArray_of_length_lt (overflowChecks : Bool) {before ws after : List Char}
    {elements : List (List Char)} (hbefore : '[' ∉ before)
    (hws : ∀ c ∈ ws, isWhitespace c = true) (helements : ∀ e ∈ elements, IsJson e)
    (hlength : (ws ++ commaSeparated elements).length + 1 < 2 ^ 31) :
    findJsonArray overflowChecks
        (before ++ '[' :: (ws ++ commaSeparated elements ++ [']']) ++ after) =
      some (some ('[' :: (ws ++ commaSeparated elements ++ [']']))) := by
  refine findJsonArray_of_passes hbefore (passes_elements hws fun e he => ?_) hlength
  refine (helements e he).isNested_length.mono ?_
  rw [List.length_append]
  exact (length_le_commaSeparated he).trans (Nat.le_add_left _ _)

/-- An array of a string with brackets and a quote. -/
def brackets : List Char := ['[', '"', 'a', ']', '\\', '"', '[', '"', ']']

theorem isNestedArray_brackets : IsNestedArray 1 brackets := by
  have hbody : IsStringBody ['a', ']', '\\', '"', '['] :=
    .char (by decide) (by decide) (by decide) (.char (by decide) (by decide) (by decide)
      (.escape (by decide) (.char (by decide) (by decide) (by decide) .nil)))
  exact @IsNestedArray.intro 0 [] [['"', 'a', ']', '\\', '"', '[', '"']] (by simp)
    (List.forall_mem_singleton.mpr (.string (.quoted hbody)))

theorem findJsonArray_brackets :
    findJsonArray true ([':', ' '] ++ brackets ++ [']', '"']) = some (some brackets) :=
  findJsonArray_eq true (by decide) isNestedArray_brackets (by decide)

/-! ### An array that is nested too deeply -/

/-- An array in so many others. -/
def deep : ℕ → List Char
  | 0 => '[' :: ([] ++ commaSeparated [] ++ [']'])
  | n + 1 => '[' :: ([] ++ commaSeparated [deep n] ++ [']'])

theorem isNested_deep (n : ℕ) : IsNested (n + 1) (deep n) := by
  induction n with
  | zero => exact .array (by simp) (by simp)
  | succ n ih => exact .array (by simp) (List.forall_mem_singleton.mpr ih)

theorem isNestedArray_deep (n : ℕ) : IsNestedArray (n + 1) (deep n) := by
  cases n with
  | zero => exact .intro (by simp) (by simp)
  | succ n => exact .intro (by simp) (List.forall_mem_singleton.mpr (isNested_deep n))

theorem scanFrom_overflow (i : ℕ) (bytes : List UInt8) :
    scanFrom true ⟨2 ^ 31 - 1, false, false⟩ i (0x5B :: bytes) = none := by
  have hadd : addDepth true (2 ^ 31 - 1) 1 = none := by decide
  rw [scanFrom, if_neg Bool.false_ne_true, if_neg (by decide), if_pos rfl]
  simp only [hadd]

/-- Where overflow is checked, the scan panics in it. -/
theorem scanFrom_deep (n : ℕ) {d : ℤ} (hd : 0 ≤ d) (hn : d + n = 2 ^ 31 - 1) (i : ℕ)
    (bytes : List UInt8) : scanFrom true ⟨d, false, false⟩ i (encode (deep n) ++ bytes) = none := by
  induction n generalizing d i bytes with
  | zero =>
    obtain rfl : d = 2 ^ 31 - 1 := by omega
    rw [deep, encode_cons, encode_open, List.append_assoc]
    exact scanFrom_overflow i _
  | succ n ih =>
    rw [deep, encode_cons, encode_open, List.append_assoc, List.singleton_append,
      scanFrom_open hd (by omega), List.nil_append, commaSeparated, encode_append, List.append_assoc]
    exact ih (by omega) (by push_cast at hn; omega) _ _

theorem find_deep (n : ℕ) : find ['['] (deep n) = some 0 := by
  cases n with
  | zero => exact find_open [] List.not_mem_nil _
  | succ n => exact find_open [] List.not_mem_nil _

/-- Such an array is one of JSON, and is not found. -/
theorem not_findJsonArray_deep : ∃ array, IsNestedArray (2 ^ 31) array ∧
    findJsonArray true ([] ++ array ++ []) ≠ some (some array) := by
  obtain ⟨n, hn⟩ : ∃ n : ℕ, n + 1 = 2 ^ 31 := ⟨2 ^ 31 - 1, by omega⟩
  refine ⟨deep n, hn ▸ isNestedArray_deep n, ?_⟩
  have hscan := scanFrom_deep n le_rfl (by omega) 0 []
  rw [List.append_nil] at hscan
  rw [List.nil_append, List.append_nil, findJsonArray, find_deep]
  simp only [List.drop_zero, hscan]
  exact nofun

end ActionExtraction

end MeetilyLocal
