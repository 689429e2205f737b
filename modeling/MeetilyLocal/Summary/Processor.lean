import MeetilyLocal.Library.Binary
import MeetilyLocal.Library.Cuts
import MeetilyLocal.Library.TextPositions

/-!
# Chunks of a transcript

The embedding of `rough_token_count` and `chunk_text` (`summary/processor.rs`). The budgets of tokens
become budgets of characters by the density of the text, in `f64` arithmetic. A chunk then has so many
characters, but is cut back to its last sentence or word, and the next one starts before the place where
it actually ends.

The loop works with characters and bytes at once: `chunkAt_eq` says that no slice is inside of a
character, and what the chunk at a character is (`piece`). All the loop does is then where its chunks
start (`Starts`, `exists_starts`), and the chunks leave nothing out (`covers_chunkText`).
-/

namespace MeetilyLocal

namespace SummaryProcessor

open Cuts Utf8

/-! ## Counting tokens -/

/-- The weight of a character as an `f64`: ASCII is lighter. -/
def charWeight (c : Char) : ℚ := if c.toNat < 128 then Binary64.round (35 / 100) else 1

/-- The estimate after more characters. -/
def addWeights (estimate : ℚ) (s : List Char) : ℚ :=
  s.foldl (fun estimate c => Binary64.round (estimate + charWeight c)) estimate

/-- Rough token count estimation. -/
def roughTokenCount (s : List Char) : ℕ := Binary64.asUsize ⌈addWeights 0 s⌉

/-! ## Chunks -/

/-- Byte offset of every char index, and one for the end. -/
def byteAt (text : List Char) : List ℕ := (charIndices text).map Prod.fst ++ [len text]

/-- How many characters the text has. -/
def totalChars (text : List Char) : ℕ := (byteAt text).length - 1

/-- The actual density of the text. -/
def charsPerToken (text : List Char) : ℚ :=
  Binary64.round (Binary64.round (totalChars text : ℕ) /
    Binary64.round (max (roughTokenCount text) 1 : ℕ))

/-- The characters of a chunk. -/
def chunkSizeChars (text : List Char) (chunkSizeTokens : ℕ) : ℕ :=
  max (Binary64.asUsize ⌈Binary64.round (Binary64.round chunkSizeTokens * charsPerToken text)⌉) 1

theorem chunkSizeChars_pos (text : List Char) (chunkSizeTokens : ℕ) :
    0 < chunkSizeChars text chunkSizeTokens := by
  rw [chunkSizeChars]
  exact lt_max_of_lt_right Nat.one_pos

/-- The characters by which the next chunk starts before the end of the one before it. -/
def overlapChars (text : List Char) (overlapTokens : ℕ) : ℕ :=
  Binary64.asUsize ⌈Binary64.round (Binary64.round overlapTokens * charsPerToken text)⌉

/-- The sentence or word boundary at which a slice is cut. -/
def boundary (slice : List Char) : Option ℕ :=
  match rfind ['.', ' '] slice with
  | some lastPeriod => some (lastPeriod + 2)
  | none => (rfind [' '] slice).map (· + 1)

/-- One pass of the loop: the chunk, and the character at which it actually ends. None where it
panics. -/
def chunkAt (text : List Char) (startChar endChar : ℕ) : Option (List Char × ℕ) := do
  let startByte ← (byteAt text)[startChar]?
  let endByte ← (byteAt text)[endChar]?
  if endChar < totalChars text then
    let slice ← sliceAt? text startByte endByte
    let endByte := (boundary slice).elim endByte (startByte + ·)
    let chunk ← sliceAt? text startByte endByte
    -- `partition_point`: the offsets increase
    some (chunk, ((byteAt text).takeWhile (· < endByte)).length)
  else
    let chunk ← sliceAt? text startByte endByte
    some (chunk, endChar)

/-- The loop from a character on. -/
def chunksFrom (text : List Char) (chunkSizeChars overlapChars startChar : ℕ) :
    Option (List (List Char)) :=
  -- the sum does not overflow: the text is longer than a chunk
  let endChar := min (startChar + chunkSizeChars) (totalChars text)
  match chunkAt text startChar endChar with
  | none => none
  | some (chunk, actualEndChar) =>
    if totalChars text ≤ endChar then some [chunk]
    else
      (chunksFrom text chunkSizeChars overlapChars
        (max (actualEndChar - overlapChars) (startChar + 1))).map (chunk :: ·)
termination_by totalChars text - startChar

/-- Chunks text into overlapping segments based on token count. -/
def chunkText (text : List Char) (chunkSizeTokens overlapTokens : ℕ) : Option (List (List Char)) :=
  if text = [] ∨ chunkSizeTokens = 0 then some []
  else if totalChars text ≤ chunkSizeChars text chunkSizeTokens then some [text]
  else chunksFrom text (chunkSizeChars text chunkSizeTokens) (overlapChars text overlapTokens) 0

/-! ## One chunk -/

theorem byteAt_eq (text : List Char) : byteAt text = positionsFrom 0 text := by
  rw [byteAt, positionsFrom, Nat.zero_add]
  rfl

@[simp] theorem totalChars_eq (text : List Char) : totalChars text = text.length := by
  rw [totalChars, byteAt_eq, length_positionsFrom, Nat.add_sub_cancel]

theorem getElem?_byteAt {text : List Char} {i : ℕ} (h : i ≤ text.length) :
    (byteAt text)[i]? = some (len (text.take i)) := by
  rw [byteAt_eq, getElem?_positionsFrom 0 h, Nat.zero_add]

theorem length_takeWhile_byteAt {text : List Char} {i : ℕ} (h : i ≤ text.length) :
    ((byteAt text).takeWhile (· < len (text.take i))).length = i := by
  have hcount := length_takeWhile_positionsFrom 0 h
  rwa [Nat.zero_add, ← byteAt_eq] at hcount

/-- A slice, cut back to its last sentence or word. -/
def cutBack (slice : List Char) : List Char := upTo slice ((boundary slice).getD (len slice))

/-- The chunk that starts at a character. -/
def piece (text : List Char) (chunkSizeChars startChar : ℕ) : List Char :=
  if startChar + chunkSizeChars < text.length then
    cutBack (slice text (startChar, startChar + chunkSizeChars))
  else text.drop startChar

theorem exists_of_boundary {slice : List Char} {k : ℕ} (h : boundary slice = some k) :
    ∃ before, before <+: slice ∧ len before = k ∧ before ≠ [] := by
  rw [boundary] at h
  split at h
  · next lastPeriod hperiod =>
    obtain ⟨before, hbefore, rfl⟩ := exists_of_rfind hperiod
    refine ⟨before ++ ['.', ' '], hbefore, ?_, by simp⟩
    rw [← Option.some.inj h, len_append]
    rfl
  · obtain ⟨lastSpace, hspace, rfl⟩ := Option.map_eq_some_iff.mp h
    obtain ⟨before, hbefore, rfl⟩ := exists_of_rfind hspace
    refine ⟨before ++ [' '], hbefore, ?_, by simp⟩
    rw [len_append]
    rfl

/-- A slice is cut back between two characters, and not to nothing. -/
theorem cutBack_spec (slice : List Char) : cutBack slice <+: slice ∧
    len (cutBack slice) = (boundary slice).getD (len slice) ∧
      (slice ≠ [] → cutBack slice ≠ []) := by
  refine ⟨upTo_isPrefix _ _, ?_⟩
  rw [cutBack]
  rcases hboundary : boundary slice with _ | k
  · rw [Option.getD_none, upTo_eq_of_isPrefix List.prefix_rfl]
    exact ⟨rfl, id⟩
  · obtain ⟨before, hbefore, rfl, hne⟩ := exists_of_boundary hboundary
    rw [Option.getD_some, upTo_eq_of_isPrefix hbefore]
    exact ⟨rfl, fun _ => hne⟩

theorem take_add_length {text p : List Char} {start stop : ℕ} (hp : p <+: slice text (start, stop)) :
    text.take (start + p.length) = text.take start ++ p := by
  have hdrop : p <+: text.drop start := hp.trans (List.take_prefix _ _)
  rw [List.take_add, ← List.prefix_iff_eq_take.mp hdrop]

theorem piece_isPrefix (text : List Char) (size start : ℕ) :
    piece text size start <+: text.drop start := by
  rw [piece]
  split
  · exact (cutBack_spec _).1.trans (List.take_prefix _ _)
  · exact List.prefix_rfl

theorem piece_ne_nil {text : List Char} {size start : ℕ} (hsize : 0 < size)
    (hstart : start < text.length) : piece text size start ≠ [] := by
  rw [piece]
  split
  · next hlt =>
    refine (cutBack_spec _).2.2 (List.ne_nil_of_length_pos ?_)
    rw [length_slice hlt.le]
    omega
  · exact List.ne_nil_of_length_pos (by rw [List.length_drop]; omega)

theorem length_piece_le {text : List Char} {size start : ℕ} (h : start + size < text.length) :
    (piece text size start).length ≤ size := by
  rw [piece, if_pos h]
  refine (cutBack_spec _).1.length_le.trans ?_
  rw [length_slice h.le, Nat.add_sub_cancel_left]

/-- A chunk is the slice from where it starts to where it ends. -/
theorem slice_piece (text : List Char) (size start : ℕ) :
    slice text (start, start + (piece text size start).length) = piece text size start := by
  rw [slice, Nat.add_sub_cancel_left]
  exact (List.prefix_iff_eq_take.mp (piece_isPrefix text size start)).symm

/-- **No slice is inside of a character.** -/
theorem chunkAt_eq {text : List Char} {start : ℕ} (size : ℕ) (hstart : start < text.length) :
    chunkAt text start (min (start + size) (totalChars text)) =
      some (piece text size start, start + (piece text size start).length) := by
  rw [totalChars_eq, chunkAt, getElem?_byteAt hstart.le, getElem?_byteAt (min_le_right _ _)]
  by_cases hlt : start + size < text.length
  · rw [min_eq_left hlt.le, piece, if_pos hlt]
    obtain ⟨hfront, hlen, -⟩ := cutBack_spec (slice text (start, start + size))
    have hwhole : sliceAt? text (len (text.take start)) (len (text.take (start + size))) =
        some (slice text (start, start + size)) := by
      rw [sliceAt?_eq_some (Nat.le_add_right _ _) hlt.le, List.drop_take]
      rfl
    have hin : start + (cutBack (slice text (start, start + size))).length ≤ text.length := by
      have hle := hfront.length_le
      rw [length_slice hlt.le] at hle
      omega
    -- the byte at which it is cut back is that of a character
    have hend : (boundary (slice text (start, start + size))).elim
        (len (text.take (start + size))) (len (text.take start) + ·) =
          len (text.take (start + (cutBack (slice text (start, start + size))).length)) := by
      rw [take_add_length hfront, len_append, hlen]
      cases boundary (slice text (start, start + size)) with
      | none =>
        rw [Option.getD_none, Option.elim_none, slice, Nat.add_sub_cancel_left, List.take_add,
          len_append]
      | some k => rfl
    have hcut : sliceAt? text (len (text.take start))
        (len (text.take (start + (cutBack (slice text (start, start + size))).length))) =
          some (cutBack (slice text (start, start + size))) := by
      rw [sliceAt?_eq_some (Nat.le_add_right _ _) hin, take_add_length hfront,
        List.drop_left' (List.length_take_of_le hstart.le)]
    simp only [Option.bind_eq_bind, Option.bind_some, totalChars_eq, if_pos hlt, hwhole, hend, hcut,
      length_takeWhile_byteAt hin]
  · have hwhole : sliceAt? text (len (text.take start)) (len (text.take text.length)) =
        some (text.drop start) := by
      rw [sliceAt?_eq_some hstart.le le_rfl, List.take_length]
    rw [min_eq_right (not_lt.mp hlt), piece, if_neg hlt, List.length_drop,
      Nat.add_sub_cancel' hstart.le]
    simp only [Option.bind_eq_bind, Option.bind_some, totalChars_eq, if_neg (lt_irrefl _), hwhole]

/-! ## The loop -/

variable {text : List Char} {size overlap : ℕ}

/-- Where the chunks start, from a character on. -/
inductive Starts (text : List Char) (size overlap : ℕ) : ℕ → List ℕ → Prop
  | last {start : ℕ} : start < text.length → text.length ≤ start + size →
      Starts text size overlap start [start]
  | next {start : ℕ} {starts : List ℕ} : start + size < text.length →
      Starts text size overlap
        (max (start + (piece text size start).length - overlap) (start + 1)) starts →
      Starts text size overlap start (start :: starts)

/-- **What the loop returns**, which it always does. -/
theorem exists_starts (hsize : 0 < size) {start : ℕ} (hstart : start < text.length) :
    ∃ starts, chunksFrom text size overlap start = some (starts.map (piece text size)) ∧
      Starts text size overlap start starts := by
  fun_induction chunksFrom text size overlap start with
  | case1 start endChar hnone =>
    rw [chunkAt_eq size hstart] at hnone
    cases hnone
  | case2 start endChar chunk actualEnd hchunk hle =>
    rw [chunkAt_eq size hstart] at hchunk
    obtain ⟨rfl, rfl⟩ := Prod.mk.inj (Option.some.inj hchunk)
    refine ⟨[start], rfl, .last hstart ?_⟩
    simp only [totalChars_eq, endChar] at hle
    omega
  | case3 start endChar chunk actualEnd hchunk hlt ih =>
    rw [chunkAt_eq size hstart] at hchunk
    obtain ⟨rfl, rfl⟩ := Prod.mk.inj (Option.some.inj hchunk)
    have hin : start + size < text.length := by
      simp only [totalChars_eq, endChar] at hlt
      omega
    -- the chunk ends before the end of the text
    have hend := length_piece_le hin
    obtain ⟨starts, hmore, hstarts⟩ := ih (by omega)
    exact ⟨start :: starts, by rw [hmore]; rfl, .next hin hstarts⟩

/-- The characters of the chunk that starts at a character. -/
def pieceRange (text : List Char) (size start : ℕ) : ℕ × ℕ :=
  (start, start + (piece text size start).length)

theorem Starts.lt_length {start : ℕ} {starts : List ℕ} (h : Starts text size overlap start starts) :
    ∀ s ∈ starts, s < text.length := by
  induction h with
  | last hstart hend => simpa using hstart
  | next hlt _ ih => exact List.forall_mem_cons.mpr ⟨by omega, ih⟩

theorem Starts.covers (hsize : 0 < size) {start a : ℕ} {starts : List ℕ}
    (h : Starts text size overlap start starts) (ha : start ≤ a) :
    Covers a text.length (starts.map (pieceRange text size)) := by
  induction h generalizing a with
  | @last start hstart hend =>
    refine ⟨ha, ?_⟩
    rw [pieceRange, piece, if_neg (by omega), List.length_drop]
    exact Nat.add_sub_cancel' hstart.le
  | @next start starts hlt _ ih =>
    -- the next chunk starts after this one, and not after its end
    have hpos := List.length_pos_of_ne_nil (piece_ne_nil hsize (by omega : start < text.length))
    exact ⟨ha, ih (max_le (Nat.sub_le _ _) (Nat.add_le_add_left hpos start))⟩

/-- The ranges of the chunks leave nothing of the text out. -/
structure Coverage (text : List Char) (ranges : List (ℕ × ℕ)) : Prop where
  /-- each is in the text, and not empty -/
  bounds : ∀ range ∈ ranges, range.1 < range.2 ∧ range.2 ≤ text.length
  /-- the first starts at 0 -/
  first : ∀ range, ranges.head? = some range → range.1 = 0
  /-- the last ends at the end -/
  last : ∀ range, ranges.getLast? = some range → range.2 = text.length
  /-- each starts no later than the one before it ends -/
  joined : ranges.IsChain fun range next => next.1 ≤ range.2
  /-- each character is in one of them -/
  complete : ∀ i < text.length, ∃ range ∈ ranges, range.1 ≤ i ∧ i < range.2

theorem Coverage.of_covers {ranges : List (ℕ × ℕ)} (h : Covers 0 text.length ranges)
    (hbounds : ∀ range ∈ ranges, range.1 < range.2 ∧ range.2 ≤ text.length) :
    Coverage text ranges where
  bounds := hbounds
  first _ hrange := Nat.le_zero.mp (h.head_le hrange)
  last _ hrange := h.eq_of_getLast? hrange
  joined := h.isChain
  complete i hi := h.exists_mem (Nat.zero_le i) hi

/-- What is returned: the whole text, or the chunks of the loop. -/
theorem exists_chunkText {chunkSizeTokens : ℕ} (htext : text ≠ []) (hpos : 0 < chunkSizeTokens)
    (overlapTokens : ℕ) : ∃ starts,
      chunkText text chunkSizeTokens overlapTokens =
        some (starts.map (piece text (chunkSizeChars text chunkSizeTokens))) ∧
      Starts text (chunkSizeChars text chunkSizeTokens) (overlapChars text overlapTokens) 0
        starts := by
  have hsize := chunkSizeChars_pos text chunkSizeTokens
  have hlength := List.length_pos_of_ne_nil htext
  rw [chunkText, if_neg (by simp [htext, hpos.ne']), totalChars_eq]
  split
  · next hle =>
    refine ⟨[0], ?_, .last hlength (by omega)⟩
    rw [List.map_singleton, piece, if_neg (by omega), List.drop_zero]
  · exact exists_starts hsize hlength

/-- **The chunks cover the transcript.** -/
theorem covers_chunkText (text : List Char) {chunkSizeTokens : ℕ} (hpos : 0 < chunkSizeTokens)
    (overlapTokens : ℕ) : ∃ ranges,
      chunkText text chunkSizeTokens overlapTokens = some (ranges.map (slice text)) ∧
      Coverage text ranges := by
  by_cases htext : text = []
  · refine ⟨[], ?_, .of_covers (by rw [htext]; rfl) (by simp)⟩
    rw [chunkText, if_pos (.inl htext), List.map_nil]
  · have hsize := chunkSizeChars_pos text chunkSizeTokens
    obtain ⟨starts, hchunks, hstarts⟩ := exists_chunkText htext hpos overlapTokens
    refine ⟨starts.map (pieceRange text (chunkSizeChars text chunkSizeTokens)), ?_,
      .of_covers (hstarts.covers hsize le_rfl) ?_⟩
    · rw [hchunks, List.map_map]
      refine congrArg some (List.map_congr_left fun start _ => ?_)
      exact (slice_piece text _ start).symm
    · refine List.forall_mem_map.mpr fun start hstart => ?_
      have hlt := hstarts.lt_length start hstart
      have hne := List.length_pos_of_ne_nil (piece_ne_nil hsize hlt)
      have hle := (piece_isPrefix text (chunkSizeChars text chunkSizeTokens) start).length_le
      rw [List.length_drop] at hle
      simp only [pieceRange]
      omega

/-- A text of three sentences, with an overlap. -/
theorem covers_chunkText_sentences : ∃ ranges,
    chunkText "One. Two three. これは".toList 3 1 =
      some (ranges.map (slice "One. Two three. これは".toList)) ∧
    Coverage "One. Two three. これは".toList ranges :=
  covers_chunkText _ (by decide) 1

end SummaryProcessor

end MeetilyLocal
