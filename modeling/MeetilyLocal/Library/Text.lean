import Mathlib.Data.List.Basic
import Mathlib.Data.List.Infix
import Mathlib.Data.List.TakeWhile
import Mathlib.Tactic.Common

/-!
# Text: UTF-8 bytes, lines and trimming

Texts are lists of characters and files are lists of bytes. `Utf8.encode` and `Utf8.decode` go
between the two, by the UTF-8 functions of the standard library; `lines` and `trim` are what
`str::lines` and `str::trim` do.

The main fact about UTF-8 is about bytes that were cut off (`Utf8.exists_take_of_decode_take`,
`Utf8.decode_take_eq_none_iff`): the first `k` bytes of a text decode exactly if byte `k` starts a
character, and then they decode to the characters that stand before it.
-/

namespace MeetilyLocal

/-- Texts that `==` finds equal are equal. -/
instance Text.lawfulBEq : LawfulBEq (List Char) := inferInstance

/-! ## UTF-8 -/

namespace Utf8

/-- The UTF-8 bytes of a text. -/
def encode (text : List Char) : List UInt8 := text.flatMap String.utf8EncodeChar

/-- The text that the bytes are the UTF-8 of, none if they are not valid UTF-8. -/
def decode (bytes : List UInt8) : Option (List Char) :=
  bytes.toByteArray.utf8Decode?.map Array.toList

/-- The index is the end of the bytes, or the byte there starts a character. -/
def IsCharBoundary (bytes : List UInt8) (k : ℕ) : Prop :=
  k = bytes.length ∨ ∃ byte, bytes[k]? = some byte ∧ byte.IsUTF8FirstByte

instance (bytes : List UInt8) (k : ℕ) : Decidable (IsCharBoundary bytes k) :=
  decidable_of_iff
    (k = bytes.length ∨ bytes[k]?.any (fun byte => decide byte.IsUTF8FirstByte) = true)
    (by simp [IsCharBoundary, Option.any_eq_true])

@[simp]
theorem encode_append (text text' : List Char) :
    encode (text ++ text') = encode text ++ encode text' :=
  List.flatMap_append

/-- Every character takes at least one byte. -/
theorem length_encode_pos {text : List Char} (h : text ≠ []) : 0 < (encode text).length := by
  obtain ⟨c, rest, rfl⟩ := List.exists_cons_of_ne_nil h
  rw [encode, List.flatMap_cons, List.length_append]
  exact Nat.add_pos_left (List.length_pos_iff.mpr String.utf8EncodeChar_ne_nil) _

/-- Fewer characters take fewer bytes. -/
theorem length_encode_take_lt {text : List Char} {n : ℕ} (h : n < text.length) :
    (encode (text.take n)).length < (encode text).length := by
  have hdrop : text.drop n ≠ [] := by
    refine List.ne_nil_of_length_pos ?_
    rw [List.length_drop]
    exact Nat.sub_pos_of_lt h
  have hsplit : encode text = encode (text.take n) ++ encode (text.drop n) := by
    rw [← encode_append, List.take_append_drop]
  rw [hsplit, List.length_append]
  exact Nat.lt_add_of_pos_right (length_encode_pos hdrop)

/-- A byte below 128 is a character. -/
theorem toNat_eq_of_mem_utf8EncodeChar {c : Char} {byte : UInt8}
    (h : byte ∈ String.utf8EncodeChar c) (hlt : byte.toNat < 128) : byte.toNat = c.toNat := by
  have hc : c.val.toNat = c.toNat := rfl
  rw [String.utf8EncodeChar] at h
  split_ifs at h
  all_goals
    simp only [List.mem_cons, List.not_mem_nil, or_false] at h
    rcases h with rfl | rfl | rfl | rfl
    all_goals
    · rw [UInt8.toNat_ofNat'] at hlt ⊢
      omega

theorem exists_mem_of_mem_encode {text : List Char} {byte : UInt8} (h : byte ∈ encode text)
    (hlt : byte.toNat < 128) : ∃ c ∈ text, c.toNat = byte.toNat := by
  obtain ⟨c, hc, hbyte⟩ := List.mem_flatMap.mp h
  exact ⟨c, hc, (toNat_eq_of_mem_utf8EncodeChar hbyte hlt).symm⟩

/-- Bytes below 128 are the characters. -/
theorem map_toNat_encode {text : List Char} (h : ∀ byte ∈ encode text, byte.toNat < 128) :
    (encode text).map UInt8.toNat = text.map Char.toNat := by
  induction text with
  | nil => rfl
  | cons c text ih =>
    rw [encode, List.flatMap_cons, ← encode, List.forall_mem_append] at h
    obtain ⟨hc, htext⟩ := h
    obtain ⟨byte, rest, hbytes⟩ : ∃ byte rest, String.utf8EncodeChar c = byte :: rest :=
      List.exists_cons_of_length_pos (by simpa using c.utf8Size_pos)
    have hbyte : byte.toNat = c.toNat :=
      toNat_eq_of_mem_utf8EncodeChar (by simp [hbytes]) (hc byte (by simp [hbytes]))
    have hsize : c.utf8Size = 1 := by
      rw [Char.utf8Size_eq_one_iff, UInt32.le_iff_toNat_le]
      change c.toNat ≤ 127
      have hlt := hc byte (by simp [hbytes])
      omega
    obtain rfl : rest = [] := by
      have hlen := String.length_utf8EncodeChar c
      rw [hbytes, hsize, List.length_cons] at hlen
      exact List.eq_nil_of_length_eq_zero (by omega)
    rw [encode, List.flatMap_cons, ← encode, hbytes, List.singleton_append, List.map_cons,
      List.map_cons, ih htext, hbyte]

theorem toByteArray_encode (text : List Char) : (encode text).toByteArray = text.utf8Encode := rfl

@[simp]
theorem decode_encode (text : List Char) : decode (encode text) = some text := by
  rw [decode, toByteArray_encode, List.utf8Decode?_utf8Encode, Option.map_some]

theorem toByteArray_take (bytes : List UInt8) (k : ℕ) :
    (bytes.take k).toByteArray = bytes.toByteArray.extract 0 k := by
  refine ByteArray.ext ?_
  rw [ByteArray.data_extract, List.data_toByteArray, List.data_toByteArray]
  simp

theorem decode_isSome_iff (bytes : List UInt8) :
    (decode bytes).isSome ↔ bytes.toByteArray.IsValidUTF8 := by
  rw [decode, Option.isSome_map, ByteArray.isSome_utf8Decode?_iff]

theorem encode_of_decode {bytes : List UInt8} {text : List Char} (h : decode bytes = some text) :
    encode text = bytes := by
  obtain ⟨chars, hchars, rfl⟩ := Option.map_eq_some_iff.mp h
  have hencode := ByteArray.utf8Encode_get_utf8Decode? (h := Option.isSome_of_eq_some hchars)
  simp only [hchars, Option.get_some] at hencode
  exact List.toByteArray_inj.mp hencode

/-- What the first bytes of a text decode to are its first characters. -/
theorem exists_take_of_decode_take {text chars : List Char} {k : ℕ}
    (h : decode ((encode text).take k) = some chars) :
    ∃ n, chars = text.take n ∧ encode (text.take n) = (encode text).take k := by
  have hencode : encode chars = (encode text).take k := encode_of_decode h
  have happend : chars.utf8Encode ++ ((encode text).drop k).toByteArray = text.utf8Encode := by
    rw [← toByteArray_encode, ← toByteArray_encode, hencode, ← List.toByteArray_append,
      List.take_append_drop]
  obtain ⟨rest, rfl⟩ := List.isPrefix_of_utf8Encode_append_eq_utf8Encode _ happend
  exact ⟨chars.length, by simp, by simpa using hencode⟩

/-- The first bytes of a text are valid exactly if the cut is at a character boundary. -/
theorem decode_take_isSome_iff (text : List Char) {k : ℕ} (hk : k ≤ (encode text).length) :
    (decode ((encode text).take k)).isSome ↔ IsCharBoundary (encode text) k := by
  have hsize : (String.ofList text).rawEndPos.byteIdx = (encode text).length := by
    show text.utf8Encode.size = _
    rw [← toByteArray_encode, List.size_toByteArray]
  have hvalid : (⟨k⟩ : String.Pos.Raw).IsValid (String.ofList text) ↔
      (text.utf8Encode.extract 0 k).IsValidUTF8 := by
    rw [String.Pos.Raw.isValid_iff_isValidUTF8_extract_zero]
    exact and_iff_right (String.Pos.Raw.le_iff.mpr (hsize ▸ hk))
  rw [decode_isSome_iff, toByteArray_take, toByteArray_encode, ← hvalid,
    String.Pos.Raw.isValid_iff_isUTF8FirstByte]
  refine or_congr ?_ ⟨?_, ?_⟩
  · rw [String.Pos.Raw.ext_iff, hsize]
  · rintro ⟨hlt, hfirst⟩
    have hlt' : k < (encode text).length := hsize ▸ String.Pos.Raw.lt_iff.mp hlt
    refine ⟨_, List.getElem?_eq_getElem hlt', ?_⟩
    rwa [List.getElem_eq_getElem_toByteArray]
  · rintro ⟨byte, hbyte, hfirst⟩
    obtain ⟨hlt, rfl⟩ := List.getElem?_eq_some_iff.mp hbyte
    rw [List.getElem_eq_getElem_toByteArray] at hfirst
    exact ⟨String.Pos.Raw.lt_iff.mpr (hsize ▸ hlt), hfirst⟩

end Utf8

/-! ## Lines -/

/-- The text cut after every line feed. -/
def splitInclusive : List Char → List (List Char)
  | [] => []
  | c :: cs =>
    if c = '\n' then [c] :: splitInclusive cs
    else
      match splitInclusive cs with
      | [] => [[c]]
      | line :: rest => (c :: line) :: rest

/-- A line without the line feed, and the carriage return before it, that end it. -/
def stripLineEnding (line : List Char) : List Char :=
  if line.getLast? = some '\n' then
    if line.dropLast.getLast? = some '\r' then line.dropLast.dropLast else line.dropLast
  else line

/-- `str::lines` -/
def lines (text : List Char) : List (List Char) := (splitInclusive text).map stripLineEnding

theorem splitInclusive_append {line : List Char} (h : '\n' ∉ line) (rest : List Char) :
    splitInclusive (line ++ '\n' :: rest) = (line ++ ['\n']) :: splitInclusive rest := by
  induction line with
  | nil => simp [splitInclusive]
  | cons c cs ih =>
    obtain ⟨hc, hcs⟩ : '\n' ≠ c ∧ '\n' ∉ cs := by simpa using h
    rw [List.cons_append, splitInclusive, if_neg hc.symm, ih hcs]
    rfl

theorem splitInclusive_of_not_mem {line : List Char} (h : '\n' ∉ line) (hne : line ≠ []) :
    splitInclusive line = [line] := by
  induction line with
  | nil => exact absurd rfl hne
  | cons c cs ih =>
    obtain ⟨hc, hcs⟩ : '\n' ≠ c ∧ '\n' ∉ cs := by simpa using h
    rw [splitInclusive, if_neg hc.symm]
    rcases cs with _ | ⟨c', cs⟩
    · rfl
    · rw [ih hcs (by simp)]

/-- A text that starts with a line. -/
theorem lines_append {line : List Char} (hn : '\n' ∉ line) (hr : line.getLast? ≠ some '\r')
    (rest : List Char) : lines (line ++ '\n' :: rest) = line :: lines rest := by
  rw [lines, splitInclusive_append hn, List.map_cons, stripLineEnding, if_pos (by simp),
    List.dropLast_concat, if_neg hr, lines]

/-- A text that is a line without an ending. -/
theorem lines_of_not_mem {line : List Char} (hn : '\n' ∉ line) (hne : line ≠ []) :
    lines line = [line] := by
  have hlast : line.getLast? ≠ some '\n' := fun h => hn (List.mem_of_getLast? h)
  rw [lines, splitInclusive_of_not_mem hn hne, List.map_singleton, stripLineEnding, if_neg hlast]

/-! ## Trimming -/

/-- The characters with the Unicode property `White_Space`. -/
def isWhiteSpace (c : Char) : Bool :=
  (0x9 ≤ c.toNat && c.toNat ≤ 0xD) || c.toNat == 0x20 || c.toNat == 0x85 || c.toNat == 0xA0 ||
    c.toNat == 0x1680 || (0x2000 ≤ c.toNat && c.toNat ≤ 0x200A) || c.toNat == 0x2028 ||
    c.toNat == 0x2029 || c.toNat == 0x202F || c.toNat == 0x205F || c.toNat == 0x3000

/-- `str::trim` -/
def trim (text : List Char) : List Char :=
  ((text.dropWhile isWhiteSpace).reverse.dropWhile isWhiteSpace).reverse

/-- A text that does not start with white space is only cut at its end. -/
theorem trim_prefix {text : List Char} {c : Char} (h : text.head? = some c)
    (hc : isWhiteSpace c = false) : trim text <+: text := by
  obtain ⟨rest, rfl⟩ := List.head?_eq_some_iff.mp h
  rw [trim, List.dropWhile_cons_of_neg (by simp [hc]), ← List.reverse_suffix, List.reverse_reverse]
  exact List.dropWhile_suffix _

/-- A text that starts with a character other than white space keeps it. -/
theorem trim_ne_nil {text : List Char} {c : Char} (h : text.head? = some c)
    (hc : isWhiteSpace c = false) : trim text ≠ [] := by
  obtain ⟨rest, rfl⟩ := List.head?_eq_some_iff.mp h
  rw [trim, List.dropWhile_cons_of_neg (by simp [hc])]
  intro hnil
  have hall := List.dropWhile_eq_nil_iff.mp (List.reverse_eq_nil_iff.mp hnil) c (by simp)
  simp [hc] at hall

/-- A text that neither starts nor ends with white space stays as it is. -/
theorem trim_eq {text : List Char} {c d : Char} (h : text.head? = some c)
    (hc : isWhiteSpace c = false) (hlast : text.getLast? = some d)
    (hd : isWhiteSpace d = false) : trim text = text := by
  obtain ⟨rest, rfl⟩ := List.head?_eq_some_iff.mp h
  rw [trim, List.dropWhile_cons_of_neg (by simp [hc])]
  obtain ⟨rest', hrest⟩ := List.head?_eq_some_iff.mp (List.head?_reverse ▸ hlast)
  rw [hrest, List.dropWhile_cons_of_neg (by simp [hd]), ← hrest, List.reverse_reverse]

end MeetilyLocal
