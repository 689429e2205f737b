import MeetilyLocal.LlamaHelper.StreamedText

/-!
# The text of a generation

What `generate` returns is to be the decoding of all pieces, cut before the first stop token
(`TextLaw`). Each piece is decoded into a string with room for 32 bytes and what does not fit is
dropped; the decoder is never told that the last piece was the last one; it looks for byte order
marks; and the first stop token in the list that is found is where the output is cut, which need
not be the first one in the text. Apart from these the law holds (`textLaw_generate_iff`).
-/

namespace MeetilyLocal

namespace LlamaHelper

open Utf8

/-- The byte order marks that a decoder of `encoding_rs` looks for. -/
def byteOrderMarks : List (List UInt8) := [[0xEF, 0xBB, 0xBF], [0xFE, 0xFF], [0xFF, 0xFE]]

/-- The bytes do not begin with a byte order mark, and the decoder does not wait for the rest of
one before it writes anything for the first byte. -/
structure NoByteOrderMark (bytes : List UInt8) : Prop where
  /-- no byte order mark -/
  not_prefix : ∀ mark ∈ byteOrderMarks, ¬mark <+: bytes
  /-- not the first byte of one for UTF-16 -/
  not_half : bytes ≠ [0xFE] ∧ bytes ≠ [0xFF]

/-- What `encoding_rs` documents of its UTF-8 decoder, and that it writes only into the room that
a string has. -/
structure DecodesUtf8 (decoder : TextDecoder) : Prop where
  /-- what it writes for a piece fits in the room -/
  fits (read piece : List UInt8) (spare : ℕ) :
    len (decoder.decodeToString read piece spare) ≤ spare
  /-- it only adds to what it has written -/
  grows (read bytes : List UInt8) : decoder.written read <+: decoder.written (read ++ bytes)
  /-- it decodes UTF-8 unless there is a byte order mark -/
  decodes {bytes : List UInt8} : NoByteOrderMark bytes → decoder.written bytes = decodeLossy bytes

/-- The text without what begins with its first stop token, right-trimmed if there is one. -/
def cutAtEarliest (stopTokens : List (List Char)) (text : List Char) : List Char :=
  match earliest stopTokens text with
  | none => text
  | some k => trimEnd (upTo text k)

/-- The text is the decoding of the bytes cut at the first stop token in it. So it loses no bytes,
and it contains no stop token. -/
structure TextLaw (stopTokens : List (List Char)) (bytes : List UInt8) (text : List Char) :
    Prop where
  /-- the decoding, cut -/
  eq_cut : text = cutAtEarliest stopTokens (decodeLossy bytes)
  /-- no bytes are left over if it was not cut -/
  complete : earliest stopTokens (decodeLossy bytes) = none → waits bytes = false
  /-- no stop token -/
  noStop : ∀ stopToken ∈ stopTokens, ¬stopToken <:+: text

/-- What the decoder reads of some pieces. -/
def bytesRead (decoder : TextDecoder) (pieces : List (List UInt8)) : List UInt8 :=
  pieces.foldl (fun read piece => read ++ decoder.readOf read piece tokenTextCapacity) []

/-- The bytes end in a stop token, or between two characters. -/
def EndsBetween (stopTokens : List (List Char)) (bytes : List UInt8) : Prop :=
  firstListed stopTokens (decodeLossy bytes) = none → waits bytes = false

/-- From the first stop token in a text to the one that stands first in the list there is only
white space. -/
def FirstIsEarliest (stopTokens : List (List Char)) (text : List Char) : Prop :=
  ∀ j k, earliest stopTokens text = some j → firstListed stopTokens text = some k →
    ∀ c ∈ dropUpTo (upTo text k) j, isWhiteSpace c = true

/-! ## The decoder in the loop -/

/-- What the decoder has read and written. -/
structure Decoding (decoder : TextDecoder) (p : Progress) : Prop where
  /-- the bytes that fitted -/
  read : p.read = bytesRead decoder p.pieces
  /-- the output is what it wrote for them -/
  output : p.output = decoder.written p.read

variable {decoder : TextDecoder} {stopTokens : List (List Char)} {p : Progress}

theorem Decoding.push (hdecoder : DecodesUtf8 decoder) (h : Decoding decoder p)
    (piece : List UInt8) : Decoding decoder (p.push decoder piece) where
  read := by simp [Progress.push, bytesRead, h.read]
  output := by
    obtain ⟨rest, hrest⟩ :=
      hdecoder.grows p.read (decoder.readOf p.read piece tokenTextCapacity)
    simp [Progress.push, TextDecoder.decodeToString, h.output, ← hrest]

theorem Decoding.stream (h : Decoding decoder p) (stopTokens : List (List Char)) :
    Decoding decoder (p.stream stopTokens) := by
  rw [Progress.stream]
  split
  · exact ⟨h.read, h.output⟩
  · exact h

theorem decoding_loop (hdecoder : DecodesUtf8 decoder) (h : Decoding decoder p) (maxTokens : ℤ)
    (tokens : List Token) :
    Decoding decoder (Progress.loop decoder stopTokens maxTokens p tokens).progress := by
  induction tokens generalizing p with
  | nil => exact h
  | cons token tokens ih =>
    rw [Progress.loop]
    split
    · exact h
    · rcases token.piece with message | piece
      · exact h
      · have hpushed := h.push hdecoder piece
        simp only
        split
        · exact hpushed
        · rcases token.evaluated with message | ⟨⟨⟩⟩
          · exact hpushed.stream stopTokens
          · exact ih ⟨(hpushed.stream stopTokens).read, (hpushed.stream stopTokens).output⟩

theorem decoding_generate (hdecoder : DecodesUtf8 decoder) (maxTokens : ℤ)
    (prepared : Except String Unit) (tokens : List Token) :
    Decoding decoder (generate decoder stopTokens maxTokens prepared tokens).progress := by
  have hmark : NoByteOrderMark [] := ⟨by decide, by decide⟩
  have hstart : Decoding decoder .start := ⟨rfl, (hdecoder.decodes hmark).symm⟩
  rcases prepared with message | ⟨⟨⟩⟩
  · exact hstart
  · exact decoding_loop hdecoder hstart maxTokens tokens

/-! ## The law -/

/-- A text in front of its first stop token contains none. -/
theorem not_infix_upTo {text stopToken : List Char} {j : ℕ}
    (hne : ∀ stopToken ∈ stopTokens, stopToken ≠ []) (hj : earliest stopTokens text = some j)
    (hmem : stopToken ∈ stopTokens) : ¬stopToken <:+: upTo text j := by
  rintro ⟨before, after, hsplit⟩
  have hin : before ++ stopToken <+: upTo text j := ⟨after, hsplit⟩
  obtain ⟨k, hk, hle⟩ := exists_find_le (hin.trans (upTo_isPrefix text j))
  have hearliest := (earliest_eq_some_iff.mp hj).2 stopToken hmem k hk
  have hlen := (len_le_of_isPrefix hin).trans (len_upTo_le text j)
  rw [len_append] at hlen
  exact hne stopToken hmem (len_eq_zero.mp (by omega))

/-- Where some stop token is found, there is an earliest one. -/
theorem exists_earliest_le {text : List Char} {k : ℕ}
    (h : firstListed stopTokens text = some k) :
    ∃ j, earliest stopTokens text = some j ∧ j ≤ k := by
  obtain ⟨before, stopToken, after, rfl, hfind, -⟩ := List.findSome?_eq_some_iff.mp h
  have hmem : stopToken ∈ before ++ stopToken :: after := by simp
  rcases hearliest : earliest (before ++ stopToken :: after) text with _ | j
  · rw [earliest_eq_none_iff.mp hearliest stopToken hmem] at hfind
    cases hfind
  · exact ⟨j, rfl, (earliest_eq_some_iff.mp hearliest).2 stopToken hmem k hfind⟩

/-- The law for an output in which no stop token occurs. -/
theorem textLaw_iff_of_fresh {bytes : List UInt8}
    (hfresh : firstListed stopTokens (decodeLossy bytes) = none) :
    TextLaw stopTokens bytes (decodeLossy bytes) ↔ waits bytes = false := by
  have hnone : earliest stopTokens (decodeLossy bytes) = none :=
    earliest_eq_none_iff.mpr (firstListed_eq_none_iff.mp hfresh)
  refine ⟨fun hlaw => hlaw.complete hnone, fun hwaits => ⟨?_, fun _ => hwaits, ?_⟩⟩
  · rw [cutAtEarliest, hnone]
  · exact fun stopToken hmem =>
      find_eq_none_iff.mp (firstListed_eq_none_iff.mp hfresh stopToken hmem)

/-- The law for an output that is cut. -/
theorem textLaw_iff_of_cut {bytes : List UInt8} {k : ℕ}
    (hne : ∀ stopToken ∈ stopTokens, stopToken ≠ [])
    (hcut : firstListed stopTokens (decodeLossy bytes) = some k) :
    TextLaw stopTokens bytes (trimEnd (upTo (decodeLossy bytes) k)) ↔
      FirstIsEarliest stopTokens (decodeLossy bytes) := by
  obtain ⟨j, hj, hle⟩ := exists_earliest_le hcut
  have hsplit : upTo (upTo (decodeLossy bytes) k) j = upTo (decodeLossy bytes) j := upTo_upTo hle
  have hwhite : trimEnd (upTo (decodeLossy bytes) k) = trimEnd (upTo (decodeLossy bytes) j) ↔
      ∀ c ∈ dropUpTo (upTo (decodeLossy bytes) k) j, isWhiteSpace c = true := by
    conv_lhs => lhs; rw [← upTo_append_dropUpTo (upTo (decodeLossy bytes) k) j, hsplit]
    exact trimEnd_append_iff
  constructor
  · intro hlaw i l hi hl
    obtain rfl := Option.some.inj (hi.symm.trans hj)
    obtain rfl := Option.some.inj (hl.symm.trans hcut)
    refine hwhite.mp (hlaw.eq_cut.trans ?_)
    rw [cutAtEarliest, hj]
  · intro hfirst
    have htext := hwhite.mpr (hfirst j k hj hcut)
    refine ⟨?_, fun hnone => ?_, fun stopToken hmem hin => ?_⟩
    · rw [htext, cutAtEarliest, hj]
    · rw [hj] at hnone
      cases hnone
    · rw [htext] at hin
      exact not_infix_upTo hne hj hmem (hin.trans (trimEnd_isPrefix _).isInfix)

/-- **The generated text.** If the decoder has room for every piece and the pieces do not begin
with a byte order mark, then the text that is returned is the decoding of all pieces cut at the
first stop token exactly if they end in a stop token or between two characters, and if there is
only white space from the first stop token to the one that stands first in the list. -/
theorem textLaw_generate_iff (hdecoder : DecodesUtf8 decoder)
    (hne : ∀ stopToken ∈ stopTokens, stopToken ≠ []) {maxTokens : ℤ}
    {prepared : Except String Unit} {tokens : List Token} {outcome : Outcome} {text : List Char}
    (houtcome : generate decoder stopTokens maxTokens prepared tokens = outcome)
    (hresult : outcome.result = .ok text)
    (hread : bytesRead decoder outcome.progress.pieces = outcome.progress.pieces.flatten)
    (hmark : NoByteOrderMark outcome.progress.pieces.flatten) :
    TextLaw stopTokens outcome.progress.pieces.flatten text ↔
      EndsBetween stopTokens outcome.progress.pieces.flatten ∧
        FirstIsEarliest stopTokens (decodeLossy outcome.progress.pieces.flatten) := by
  have hended : Ended stopTokens outcome :=
    houtcome ▸ ended_generate decoder hne maxTokens prepared tokens
  have hdecoding : Decoding decoder outcome.progress :=
    houtcome ▸ decoding_generate hdecoder maxTokens prepared tokens
  have houtput : outcome.progress.output = decodeLossy outcome.progress.pieces.flatten := by
    rw [hdecoding.output, hdecoding.read, hread, hdecoder.decodes hmark]
  cases hended with
  | @cut p decoder' piece k h hcut hle =>
    obtain rfl := Except.ok.inj hresult
    have hcut' : firstListed stopTokens (decodeLossy (p.push decoder' piece).pieces.flatten) =
        some k := houtput ▸ hcut
    simp only at houtput ⊢
    rw [houtput, textLaw_iff_of_cut hne hcut']
    refine (and_iff_right fun hnone => ?_).symm
    rw [hcut'] at hnone
    cases hnone
  | @done p h =>
    obtain rfl := Except.ok.inj hresult
    have hfresh : firstListed stopTokens (decodeLossy p.pieces.flatten) = none :=
      houtput ▸ h.fresh
    simp only at houtput ⊢
    rw [houtput, textLaw_iff_of_fresh hfresh]
    refine ⟨fun hwaits => ⟨fun _ => hwaits, fun j k _ hk => ?_⟩, fun hends => hends.1 hfresh⟩
    rw [hfresh] at hk
    cases hk
  | failed h => cases hresult

/-! ### A character in two pieces, and a piece that is too long -/

theorem decodesUtf8_utf8Decoder : DecodesUtf8 utf8Decoder where
  fits read piece spare := by
    have hnone : len ((decodeLossy (read ++ piece.take 0)).drop (decodeLossy read).length) ≤
        spare := by simp
    exact Nat.findGreatest_spec (P := fun n =>
      len ((decodeLossy (read ++ piece.take n)).drop (decodeLossy read).length) ≤ spare)
      (Nat.zero_le piece.length) hnone
  grows := decodeLossy_prefix
  decodes _ := rfl

/-- The two bytes of the last letter come in two pieces. -/
def splitLetter : List Token :=
  [⟨.ok [0x43, 0x61, 0x66, 0xC3], .ok ()⟩, ⟨.ok [0xA9], .ok ()⟩, .ofText "<end_of_turn>"]

/-- A piece of 33 letters. -/
def longPiece : List Token := [⟨.ok (List.replicate 33 0x61), .ok ()⟩]

/-- A character that was split. -/
theorem textLaw_splitLetter : TextLaw ["<end_of_turn>".toList]
    (generate utf8Decoder ["<end_of_turn>".toList] 512 (.ok ()) splitLetter).progress.pieces.flatten
    "Café".toList := by
  refine (textLaw_generate_iff decodesUtf8_utf8Decoder (by decide) rfl (by decide +kernel)
    (by decide +kernel) ⟨by decide +kernel, by decide +kernel⟩).mpr ⟨?_, fun j k hj hk => ?_⟩
  · intro hnone
    exact absurd hnone (by decide +kernel)
  · obtain rfl : 5 = j := Option.some.inj (Eq.trans (by decide +kernel) hj)
    obtain rfl : 5 = k := Option.some.inj (Eq.trans (by decide +kernel) hk)
    rw [dropUpTo_upTo]
    exact nofun

/-- The last letter does not fit. -/
theorem not_textLaw_longPiece : ∃ text,
    (generate utf8Decoder ["<end_of_turn>".toList] 512 (.ok ()) longPiece).result = .ok text ∧
      ¬TextLaw ["<end_of_turn>".toList]
        (generate utf8Decoder ["<end_of_turn>".toList] 512 (.ok ())
          longPiece).progress.pieces.flatten text := by
  refine ⟨List.replicate 32 'a', by decide +kernel, fun hlaw => ?_⟩
  exact absurd hlaw.eq_cut (by decide +kernel)

end LlamaHelper

end MeetilyLocal
