import MeetilyLocal.Summary.Processor

/-!
# The progress of the chunks

Each chunk of the loop costs one call of the model. The loop advances its start by at least one
character, but a chunk is cut back to its last sentence or word, and where that one is in the overlap
with the chunk before it, the chunk ends where that one does, or before it (`not_progress_early`).

The chunks make progress, that is each ends after the one before it (`Progress`), exactly if no pass of
the loop cuts its window back into the chunk before it (`SnapsAfter`, `progress_iff`).
-/

namespace MeetilyLocal

namespace SummaryProcessor

open Cuts Utf8

variable {text : List Char} {size overlap chunkSizeTokens overlapTokens : ℕ} {starts : List ℕ}

/-! ## Where a slice is cut back to -/

/-- The last occurrence in a slice, and what is before it. -/
theorem exists_last_of_rfind {needle slice : List Char} {k : ℕ} (h : rfind needle slice = some k) :
    ∃ before, before ++ needle <+: slice ∧ len (before ++ needle) = k + len needle ∧
      ∀ earlier, earlier ++ needle <+: slice → earlier.length ≤ before.length := by
  obtain ⟨before, hbefore, rfl⟩ := exists_of_rfind h
  refine ⟨before, hbefore, len_append _ _, fun earlier hearlier => ?_⟩
  obtain ⟨k, hk, hle⟩ := exists_le_rfind hearlier
  rw [h] at hk
  obtain rfl := Option.some.inj hk
  have hfront := (List.prefix_append earlier needle).trans hearlier
  exact (prefix_of_len_le hfront ((List.prefix_append before needle).trans hbefore) hle).length_le

/-- A slice is cut back to its last sentence; to its last word, if it has none; or not at all. -/
theorem cutBack_cases (slice : List Char) :
    (∃ before, cutBack slice = before ++ ['.', ' '] ∧ before ++ ['.', ' '] <+: slice ∧
      ∀ earlier, earlier ++ ['.', ' '] <+: slice → earlier.length ≤ before.length) ∨
    (¬['.', ' '] <:+: slice ∧ ∃ before, cutBack slice = before ++ [' '] ∧
      before ++ [' '] <+: slice ∧
        ∀ earlier, earlier ++ [' '] <+: slice → earlier.length ≤ before.length) ∨
    (¬['.', ' '] <:+: slice ∧ ¬[' '] <:+: slice ∧ cutBack slice = slice) := by
  rw [cutBack, boundary]
  rcases hperiod : rfind ['.', ' '] slice with _ | lastPeriod
  · have hno := rfind_eq_none_iff.mp hperiod
    rcases hspace : rfind [' '] slice with _ | lastSpace
    · refine .inr (.inr ⟨hno, rfind_eq_none_iff.mp hspace, ?_⟩)
      exact upTo_eq_of_isPrefix List.prefix_rfl
    · obtain ⟨before, hbefore, hlen, hlast⟩ := exists_last_of_rfind hspace
      refine .inr (.inl ⟨hno, before, ?_, hbefore, hlast⟩)
      rw [← upTo_eq_of_isPrefix hbefore, hlen]
      rfl
  · obtain ⟨before, hbefore, hlen, hlast⟩ := exists_last_of_rfind hperiod
    refine .inl ⟨before, ?_, hbefore, hlast⟩
    rw [← upTo_eq_of_isPrefix hbefore, hlen]
    rfl

/-! ## One pass -/

/-- A pass of the loop does not cut its window back into the chunk before it, which ends at `stop`. -/
def SnapsAfter (text : List Char) (size stop start : ℕ) : Prop :=
  start + size < text.length →
    -- the window has a sentence that ends after it, or no sentence
    (∃ before, before ++ ['.', ' '] <+: slice text (start, start + size) ∧
      stop < start + (before ++ ['.', ' ']).length) ∨
    (¬['.', ' '] <:+: slice text (start, start + size) ∧
      -- and then a word that ends after it, or no word
      ([' '] <:+: slice text (start, start + size) →
        ∃ before, before ++ [' '] <+: slice text (start, start + size) ∧
          stop < start + (before ++ [' ']).length))

/-- This is when the chunk ends after the one before it. -/
theorem snapsAfter_iff {stop start : ℕ} (hstart : start < text.length) (hstop : stop < text.length)
    (hwindow : stop < start + size) :
    SnapsAfter text size stop start ↔ stop < start + (piece text size start).length := by
  rw [SnapsAfter, piece]
  split
  · next hlt =>
    rw [imp_iff_right hlt]
    rcases cutBack_cases (slice text (start, start + size)) with
      ⟨last, hcut, hlast, hmax⟩ | ⟨hno, last, hcut, hlast, hmax⟩ | ⟨hno, hnone, hcut⟩
    · have hin : ['.', ' '] <:+: slice text (start, start + size) :=
        (List.suffix_append last _).isInfix.trans hlast.isInfix
      rw [hcut, or_iff_left fun h => h.1 hin]
      refine ⟨?_, fun hafter => ⟨last, hlast, hafter⟩⟩
      rintro ⟨before, hbefore, hafter⟩
      have hle := hmax before hbefore
      rw [List.length_append] at hafter ⊢
      omega
    · have hin : [' '] <:+: slice text (start, start + size) :=
        (List.suffix_append last _).isInfix.trans hlast.isInfix
      rw [hcut, or_iff_right, imp_iff_right hin]
      · refine ⟨?_, fun hafter => ⟨hno, last, hlast, hafter⟩⟩
        rintro ⟨-, before, hbefore, hafter⟩
        have hle := hmax before hbefore
        rw [List.length_append] at hafter ⊢
        omega
      · rintro ⟨before, hbefore, -⟩
        exact hno ((List.suffix_append before _).isInfix.trans hbefore.isInfix)
    · rw [hcut, length_slice hlt.le, Nat.add_sub_cancel_left]
      exact iff_of_true (.inr ⟨hno, fun hin => absurd hin hnone⟩) hwindow
  · next hge =>
    rw [List.length_drop, Nat.add_sub_cancel' hstart.le]
    exact iff_of_true (fun hlt => absurd hlt hge) hstop

/-! ## The loop -/

/-- Each chunk but the last starts the next one. -/
theorem Starts.isChain {start : ℕ} (h : Starts text size overlap start starts) :
    starts.IsChain fun s next => s + size < text.length ∧
      next = max (s + (piece text size s).length - overlap) (s + 1) := by
  induction h with
  | last => exact .singleton _
  | next hlt hmore ih =>
    refine List.isChain_cons.mpr ⟨fun next hnext => ⟨hlt, ?_⟩, ih⟩
    cases hmore with
    | last => exact (Option.some.inj hnext).symm
    | next => exact (Option.some.inj hnext).symm

theorem Starts.isChain_ends_iff {start : ℕ} (h : Starts text size overlap start starts) :
    ((starts.map (pieceRange text size)).IsChain fun range next => range.2 < next.2) ↔
      starts.IsChain fun s next => SnapsAfter text size (s + (piece text size s).length) next := by
  rw [List.isChain_map, List.isChain_iff_forall_rel_of_append_cons_cons,
    List.isChain_iff_forall_rel_of_append_cons_cons]
  refine forall₅_congr fun s next before after heq => ?_
  obtain ⟨hlt, hnext⟩ := List.isChain_iff_forall_rel_of_append_cons_cons.mp h.isChain heq
  have hin := h.lt_length next (by simp [heq])
  have hle := length_piece_le hlt
  have hsnaps : SnapsAfter text size (s + (piece text size s).length) next ↔ _ :=
    snapsAfter_iff hin (by omega) (by omega)
  exact hsnaps.symm

/-- What the chunks of a transcript make of it. -/
structure Progress (text : List Char) (ranges : List (ℕ × ℕ)) : Prop where
  /-- each ends after the one before it -/
  ends : ranges.IsChain fun range next => range.2 < next.2
  /-- none is contained in the one before it -/
  notIn : ranges.IsChain fun range next => ¬(range.1 ≤ next.1 ∧ next.2 ≤ range.2)
  /-- there are no more than fit the text at the smallest advance -/
  count : ∀ d, (∀ advance ∈ advances 0 ranges, d ≤ advance) → ranges.length * d ≤ text.length

theorem progress_iff_ends {ranges : List (ℕ × ℕ)} (h : ∀ range ∈ ranges, range.2 ≤ text.length) :
    Progress text ranges ↔ ranges.IsChain fun range next => range.2 < next.2 := by
  refine ⟨Progress.ends, fun hends => ⟨hends, ?_, fun d => length_mul_le_of_advances h hends⟩⟩
  exact hends.imp fun range next hlt hin => absurd hlt (not_lt.mpr hin.2)

/-- Where the chunks that are returned start. -/
structure Returns (text : List Char) (chunkSizeTokens overlapTokens : ℕ) (starts : List ℕ) : Prop
    where
  /-- they are what is returned -/
  chunks : chunkText text chunkSizeTokens overlapTokens =
    some (starts.map (piece text (chunkSizeChars text chunkSizeTokens)))
  /-- by the loop -/
  loop : text ≠ [] → Starts text (chunkSizeChars text chunkSizeTokens)
    (overlapChars text overlapTokens) 0 starts

theorem exists_returns (text : List Char) (h : 0 < chunkSizeTokens) (overlapTokens : ℕ) :
    ∃ starts, Returns text chunkSizeTokens overlapTokens starts := by
  by_cases htext : text = []
  · exact ⟨[], by rw [chunkText, if_pos (.inl htext)]; rfl, fun hne => absurd htext hne⟩
  · obtain ⟨starts, hchunks, hstarts⟩ := exists_chunkText htext h overlapTokens
    exact ⟨starts, hchunks, fun _ => hstarts⟩

/-- **The chunks make progress** exactly if no pass cuts its window back into the chunk before it. -/
theorem progress_iff (h : overlapTokens < chunkSizeTokens) :
    (∃ starts, Returns text chunkSizeTokens overlapTokens starts) ∧
    ∀ starts, Returns text chunkSizeTokens overlapTokens starts →
      (Progress text (starts.map (pieceRange text (chunkSizeChars text chunkSizeTokens))) ↔
        starts.IsChain fun s next => SnapsAfter text (chunkSizeChars text chunkSizeTokens)
          (s + (piece text (chunkSizeChars text chunkSizeTokens) s).length) next) := by
  refine ⟨exists_returns text (by omega) overlapTokens, fun starts hreturns => ?_⟩
  by_cases htext : text = []
  · obtain rfl : starts = [] := by
      have hchunks := hreturns.chunks
      rw [chunkText, if_pos (.inl htext)] at hchunks
      exact List.map_eq_nil_iff.mp (Option.some.inj hchunks).symm
    exact iff_of_true ((progress_iff_ends (by simp)).mpr .nil) .nil
  · have hstarts := hreturns.loop htext
    rw [progress_iff_ends, hstarts.isChain_ends_iff]
    refine List.forall_mem_map.mpr fun s hs => ?_
    have hle := (piece_isPrefix text (chunkSizeChars text chunkSizeTokens) s).length_le
    have hlt := hstarts.lt_length s hs
    rw [List.length_drop] at hle
    simp only [pieceRange]
    omega

/-- A short sentence in front of a long word. -/
def early : List Char := "A. bcdefghijkl".toList

theorem progress_iff_early :
    (∃ starts, Returns early 4 2 starts) ∧
    ∀ starts, Returns early 4 2 starts →
      (Progress early (starts.map (pieceRange early (chunkSizeChars early 4))) ↔
        starts.IsChain fun s next => SnapsAfter early (chunkSizeChars early 4)
          (s + (piece early (chunkSizeChars early 4) s).length) next) :=
  progress_iff (by decide)

/-- Its first and only full stop is where the first two chunks end. -/
theorem not_progress_early : ¬∃ starts, Returns early 4 2 starts ∧
    Progress early (starts.map (pieceRange early (chunkSizeChars early 4))) := by
  rintro ⟨starts, hreturns, hprogress⟩
  have hsize : chunkSizeChars early 4 = 12 := by decide +kernel
  have hoverlap : overlapChars early 2 = 6 := by decide +kernel
  have hstarts := hreturns.loop (by decide)
  rw [hsize, hoverlap] at hstarts
  rw [hsize] at hprogress
  cases hstarts with
  | last _ hge => exact absurd hge (by decide)
  | next _ hmore =>
    -- the second chunk starts at the next character, and ends at the third as the first one does
    have hends := hprogress.ends
    cases hmore with
    | last _ hge => exact absurd hge (by decide +kernel)
    | next _ _ => exact absurd ((List.isChain_cons.mp hends).1 _ rfl) (by decide +kernel)

end SummaryProcessor

end MeetilyLocal
