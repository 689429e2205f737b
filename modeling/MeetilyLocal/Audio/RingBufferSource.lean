import Mathlib.Tactic
import MeetilyLocal.Audio.RingBuffer
import MeetilyLocal.Library.Timeline

/-!
# One source of the ring buffer keeps its stream aligned

A source *tracks* what it received when its buffer is a tail of it that ends at `rawNextPos`,
counted from the source's anchor (`SourceState.Tracks`). Late starts, forced gaps and overflow
trims all keep this: each of them only drops from the front of the buffer, moving
`bufStartPos` along. Hence the sample at position `p` of the common timeline is always the
received sample number `p - anchor`, and a window is a stretch of that timeline.
-/

namespace MeetilyLocal

universe u v

open Timeline

/-! ## The invariant of one source -/

/-- The buffer of an expected source, capped at `M`, against everything received from it (`R`,
anchored at `a`) and the cursor `wp`. -/
structure SourceState.Tracks {α : Type u} (src : SourceState α) (M : ℕ) (R : List α)
    (a wp : ℕ) : Prop where
  /-- nothing was received before the first chunk -/
  unseen : src.seen = false → R = []
  /-- the incoming position counts what was received -/
  raw_eq : src.seen = true → src.rawNextPos = a + R.length
  /-- the buffer is a tail of what was received -/
  tail : src.buffer <:+ R
  /-- a non-empty buffer ends at the incoming position -/
  ends : src.buffer ≠ [] → src.bufStartPos + src.buffer.length = src.rawNextPos
  /-- a non-empty buffer starts at or after the cursor -/
  ahead : src.buffer ≠ [] → wp ≤ src.bufStartPos
  /-- only ranges behind the cursor are given up on -/
  discard_le : src.discardBefore ≤ wp
  /-- the cursor moved only over ranges that were covered or given up on -/
  reached : wp ≤ max (if src.seen then src.rawNextPos else 0) src.discardBefore
  /-- what was received past the cursor is still there, at least its end -/
  pending : 0 < M → src.seen = true → max wp a < src.rawNextPos → src.buffer ≠ []

namespace SourceState

variable {α : Type u}

namespace Tracks

variable {src : SourceState α} {M : ℕ} {R : List α} {a wp : ℕ}

theorem seen_of_buffer (h : src.Tracks M R a wp) (hne : src.buffer ≠ []) : src.seen = true := by
  by_contra hs
  have hR := h.unseen (by simpa using hs)
  have htail := h.tail
  rw [hR, List.suffix_nil] at htail
  exact hne htail

/-- **Alignment of the buffer**: what sits at aligned position `p` is the received sample whose
anchored position is `p`. -/
theorem getElem?_buffer (h : src.Tracks M R a wp) {i : ℕ} {x : α}
    (hx : src.buffer[i]? = some x) :
    ∃ j, a + j = src.bufStartPos + i ∧ R[j]? = some x := by
  have hi : i < src.buffer.length := (List.getElem?_eq_some_iff.mp hx).1
  have hne : src.buffer ≠ [] := by
    intro hnil
    simp [hnil] at hi
  obtain ⟨pre, hpre⟩ := h.tail
  have hlen : R.length = pre.length + src.buffer.length := by rw [← hpre, List.length_append]
  have hends := h.ends hne
  have hraw := h.raw_eq (h.seen_of_buffer hne)
  refine ⟨pre.length + i, by omega, ?_⟩
  rw [← hpre, List.getElem?_append_right (by omega), Nat.add_sub_cancel_left]
  exact hx

/-- The cursor passes a range in which the buffer has nothing. -/
theorem advance (h : src.Tracks M R a wp) {wp' : ℕ} (hwp : wp ≤ wp')
    (hreach : wp' ≤ if src.seen then src.rawNextPos else 0)
    (hahead : src.buffer ≠ [] → wp' ≤ src.bufStartPos) : src.Tracks M R a wp' :=
  ⟨h.unseen, h.raw_eq, h.tail, h.ends, hahead, h.discard_le.trans hwp,
    hreach.trans (le_max_left _ _), fun hM hs hlt => h.pending hM hs (by omega)⟩

/-- Draining `k` samples from the front, up to the new cursor or all there is. -/
theorem drained (h : src.Tracks M R a wp) {k wp' : ℕ} (hwp : wp ≤ wp')
    (hreach : wp' ≤ max (if src.seen then src.rawNextPos else 0) src.discardBefore)
    (hle : src.bufStartPos + k ≤ wp') (hk : k = src.buffer.length ∨ src.bufStartPos + k = wp')
    (hlen : k ≤ src.buffer.length) :
    ({ src with
      buffer := src.buffer.drop k
      bufStartPos := src.bufStartPos + k } : SourceState α).Tracks M R a wp' := by
  have hne : src.buffer.drop k ≠ [] → src.buffer ≠ [] ∧ k < src.buffer.length := by
    intro hdrop
    refine ⟨fun hnil => hdrop (by simp [hnil]), ?_⟩
    by_contra hge
    exact hdrop (List.drop_eq_nil_iff.mpr (not_lt.mp hge))
  have hdiscard := h.discard_le
  refine ⟨h.unseen, h.raw_eq, (List.drop_suffix _ _).trans h.tail, ?_, ?_, by simp only; omega,
    hreach, ?_⟩
  · intro hdrop
    obtain ⟨hb, hlt⟩ := hne hdrop
    have hends := h.ends hb
    simp only [List.length_drop]
    omega
  · intro hdrop
    obtain ⟨-, hlt⟩ := hne hdrop
    show wp' ≤ src.bufStartPos + k
    omega
  · intro hM hs hlt hnil
    have hraw : max wp' a < src.rawNextPos := hlt
    have hends := h.ends (h.pending hM hs (by omega))
    have := List.drop_eq_nil_iff.mp hnil
    omega

/-- The safety cap drops from the front only. -/
theorem capped (h : src.Tracks M R a wp) : (src.capped M).Tracks M R a wp := by
  unfold SourceState.capped
  split_ifs with hlt
  · have hne : src.buffer ≠ [] := by
      intro hnil
      simp [hnil] at hlt
    have hends := h.ends hne
    have hahead := h.ahead hne
    refine ⟨h.unseen, h.raw_eq, (List.drop_suffix _ _).trans h.tail, ?_, ?_, h.discard_le,
      h.reached, ?_⟩
    · intro _
      simp only [List.length_drop]
      omega
    · intro _
      show wp ≤ src.bufStartPos + _
      omega
    · intro hM _ _ hnil
      have hnil' := List.drop_eq_nil_iff.mp hnil
      omega
  · exact h

/-- Anchoring a source that has not been seen: it is placed at its anchor, with nothing
received yet. -/
theorem anchored (h : src.Tracks M R a wp) {oe os : Bool} {or : ℕ}
    (ha : src.seen = false → a = src.anchor oe os or) :
    (src.anchored oe os or).Tracks M R a wp ∧ (src.anchored oe os or).seen = true := by
  unfold SourceState.anchored
  split_ifs with hs
  · exact ⟨h, hs⟩
  · have hs' : src.seen = false := by simpa using hs
    have hR := h.unseen hs'
    have hbuf : src.buffer = [] := by
      have := h.tail
      rwa [hR, List.suffix_nil] at this
    have hle : src.discardBefore ≤ a := by
      rw [ha hs']
      exact le_max_right _ _
    have hreached := h.reached
    have hdiscard := h.discard_le
    simp only [hs', Bool.false_eq_true, if_false, Nat.zero_max] at hreached
    refine ⟨⟨fun _ => hR, fun _ => ?_, h.tail, fun hne => absurd hbuf hne,
      fun hne => absurd hbuf hne, hdiscard, ?_, ?_⟩, rfl⟩
    · show src.anchor oe os or = a + R.length
      rw [hR, ← ha hs']
      rfl
    · show wp ≤ max (src.anchor oe os or) src.discardBefore
      omega
    · intro _ _ hlt
      -- nothing was received yet: the incoming position is the anchor itself
      have hlt' : max wp a < src.anchor oe os or := hlt
      rw [← ha hs'] at hlt'
      omega

/-- Where the extended buffer of `absorb` starts: at the first sample that is not late, or where
it was. Either way it ends with the chunk and lies past the cursor. -/
theorem absorb_start (h : src.Tracks M R a wp) (hs : src.seen = true) {n : ℕ}
    (hlate : src.discardBefore < src.rawNextPos + n) :
    ∃ start, (if src.buffer.isEmpty then
        src.rawNextPos + (src.discardBefore - src.rawNextPos) else src.bufStartPos) = start ∧
      wp ≤ start ∧
      start + (src.buffer.length + (n - (src.discardBefore - src.rawNextPos))) =
        src.rawNextPos + n ∧
      (src.buffer ≠ [] → src.discardBefore - src.rawNextPos = 0) := by
  refine ⟨_, rfl, ?_⟩
  have hdiscard := h.discard_le
  have hreached := h.reached
  rw [if_pos hs] at hreached
  by_cases hb : src.buffer = []
  · simp only [hb, List.isEmpty_nil, if_true, List.length_nil]
    refine ⟨by omega, by omega, fun hne => absurd rfl hne⟩
  · have hends := h.ends hb
    have hahead := h.ahead hb
    rw [if_neg (by simpa using hb)]
    exact ⟨hahead, by omega, fun _ => by omega⟩

/-- A chunk for an anchored source: late samples are dropped, the rest continues the buffer. -/
theorem absorb (h : src.Tracks M R a wp) (hs : src.seen = true) {samples : List α}
    (hne : samples ≠ []) :
    ({ src with rawNextPos := src.rawNextPos + samples.length }.absorb src.rawNextPos samples
      M).Tracks M (R ++ samples) a wp := by
  have hlen : 0 < samples.length := List.length_pos_of_ne_nil hne
  have hraw := h.raw_eq hs
  have hdiscard := h.discard_le
  have hreached := h.reached
  rw [if_pos hs] at hreached
  have hcount : src.rawNextPos + samples.length = a + (R ++ samples).length := by
    rw [List.length_append]
    omega
  have hunseen : src.seen = false → R ++ samples = [] := fun hf => by simp [hs] at hf
  unfold SourceState.absorb
  by_cases hlate : src.rawNextPos + samples.length ≤ src.discardBefore
  · -- entirely late: only a source with an empty buffer is that far behind
    have hbuf : src.buffer = [] := by
      by_contra hb
      have := h.ends hb
      have := h.ahead hb
      omega
    simp only [if_pos hlate]
    refine ⟨hunseen, fun _ => hcount, ?_, fun hb => absurd hbuf hb, fun hb => absurd hbuf hb,
      hdiscard, ?_, ?_⟩
    · rw [hbuf]
      exact List.nil_suffix
    · simp only [hs, if_true]
      omega
    · intro _ _ hlt
      simp only at hlt
      omega
  · obtain ⟨start, hstart, hahead, hends, hzero⟩ := h.absorb_start hs (not_le.mp hlate)
    simp only [if_neg hlate, if_neg (show ¬ samples.length ≤ src.discardBefore - src.rawNextPos
      by omega), hstart]
    have hgrown : ({ src with
        buffer := src.buffer ++ samples.drop (src.discardBefore - src.rawNextPos)
        bufStartPos := start
        rawNextPos := src.rawNextPos + samples.length } : SourceState α).Tracks M
          (R ++ samples) a wp := by
      refine ⟨hunseen, fun _ => hcount, ?_, ?_, fun _ => hahead, hdiscard, ?_, ?_⟩
      · -- the buffer was empty, or nothing of the chunk is late
        by_cases hb : src.buffer = []
        · rw [hb, List.nil_append]
          exact (List.drop_suffix _ _).trans (List.suffix_append R samples)
        · obtain ⟨pre, hpre⟩ := h.tail
          rw [hzero hb, List.drop_zero, ← hpre, List.append_assoc]
          exact List.suffix_append pre _
      · intro _
        simp only [List.length_append, List.length_drop]
        exact hends
      · simp only [hs, if_true]
        omega
      · intro _ _ _ hnil
        have hnil' := congrArg List.length hnil
        simp only [List.length_append, List.length_drop, List.length_nil] at hnil'
        omega
    exact hgrown.capped

/-- Ingesting a chunk: what was received grows by the chunk. -/
theorem ingest (h : src.Tracks M R a wp) (he : src.expected = true) {oe os : Bool} {or : ℕ}
    {samples : List α}
    (ha : src.seen = false → samples ≠ [] → a = src.anchor oe os or) :
    (src.ingest M oe os or samples).Tracks M (R ++ samples) a wp := by
  unfold SourceState.ingest
  by_cases hne : samples = []
  · simpa [hne] using h
  · obtain ⟨hanch, hs⟩ := h.anchored fun hf => ha hf hne
    rw [if_neg (by simp [he, hne])]
    exact hanch.absorb hs hne

end Tracks

@[simp] theorem ingest_expected (src : SourceState α) (M : ℕ) (oe os : Bool) (or : ℕ)
    (samples : List α) : (src.ingest M oe os or samples).expected = src.expected := by
  simp only [ingest, absorb, capped, anchored]
  split_ifs <;> rfl

theorem ingest_nil (src : SourceState α) (M : ℕ) (oe os : Bool) (or : ℕ) :
    src.ingest M oe os or [] = src := by
  rw [ingest, if_pos (by simp)]

theorem ingest_of_not_expected {src : SourceState α} (he : src.expected = false) (M : ℕ)
    (oe os : Bool) (or : ℕ) (samples : List α) : src.ingest M oe os or samples = src := by
  rw [ingest, if_pos (by simp [he])]

/-- A source is anchored by its first samples. -/
theorem ingest_seen {src : SourceState α} (he : src.expected = true) {samples : List α}
    (hne : samples ≠ []) {M : ℕ} {oe os : Bool} {or : ℕ} :
    (src.ingest M oe os or samples).seen = true := by
  have hanch : (src.anchored oe os or).seen = true := by
    rw [anchored]
    split_ifs with hs
    · exact hs
    · rfl
  rw [ingest, if_neg (by simp [he, hne])]
  simp only [absorb, capped]
  split_ifs <;> exact hanch

/-! ## Taking a window -/

theorem frontier_eq {src : SourceState α} (he : src.expected = true) (wp : ℕ) :
    src.frontier wp = if src.seen then src.rawNextPos else 0 := by
  cases hs : src.seen <;> simp [frontier, he, hs]

@[simp] theorem realigned_expected (src : SourceState α) (wp : ℕ) :
    (src.realigned wp).expected = src.expected := by
  unfold realigned
  split_ifs <;> rfl

@[simp] theorem realigned_seen (src : SourceState α) (wp : ℕ) :
    (src.realigned wp).seen = src.seen := by
  unfold realigned
  split_ifs <;> rfl

@[simp] theorem realigned_rawNextPos (src : SourceState α) (wp : ℕ) :
    (src.realigned wp).rawNextPos = src.rawNextPos := by
  unfold realigned
  split_ifs <;> rfl

variable [Zero α] {src : SourceState α} {M : ℕ} {R : List α} {a wp w : ℕ}

/-- What a source would hand out at position `p` of the common timeline. -/
def sampleAt (src : SourceState α) : ℕ → α := placed src.bufStartPos src.buffer

@[simp] theorem takeWindow_expected (src : SourceState α) (g : Bool) (wp w : ℕ) :
    (src.takeWindow g wp w).2.expected = src.expected := by
  simp only [takeWindow]
  split_ifs <;> simp

@[simp] theorem takeWindow_seen (src : SourceState α) (g : Bool) (wp w : ℕ) :
    (src.takeWindow g wp w).2.seen = src.seen := by
  simp only [takeWindow]
  split_ifs <;> simp

@[simp] theorem takeWindow_rawNextPos (src : SourceState α) (g : Bool) (wp w : ℕ) :
    (src.takeWindow g wp w).2.rawNextPos = src.rawNextPos := by
  simp only [takeWindow]
  split_ifs <;> simp

theorem takeWindow_of_not_expected (he : src.expected = false) (g : Bool) (wp w : ℕ) :
    src.takeWindow g wp w = (List.replicate w 0, src) := by
  simp [takeWindow, he]

/-- Padding a window with zeros and truncating it to its size is one `take`. -/
theorem resize_eq (xs : List α) (n : ℕ) :
    resize xs n = (xs ++ List.replicate (n - xs.length) 0).take n := by
  rw [resize, List.take_append, List.take_of_length_le (l := List.replicate _ _)]
  simp

namespace Tracks

/-- A forced gap: zeros, and the range is given up on. -/
theorem takeWindow_gap (h : src.Tracks M R a wp) (he : src.expected = true)
    (hlag : src.frontier wp < wp + w) :
    (src.takeWindow true wp w).1 = List.replicate w 0 ∧
      (src.takeWindow true wp w).2.Tracks M R a (wp + w) := by
  have hdiscard := h.discard_le
  rw [frontier_eq he] at hlag
  simp only [takeWindow, he, Bool.not_true, Bool.false_eq_true, if_false, if_true]
  refine ⟨trivial, h.unseen, h.raw_eq, List.nil_suffix, fun hne => absurd rfl hne,
    fun hne => absurd rfl hne, by simp only; omega, by simp only; omega, ?_⟩
  intro _ hs hlt
  simp only at hs hlt
  rw [if_pos hs] at hlag
  omega

/-- Realigning a tracking source only moves the front of an empty buffer to the cursor. -/
theorem realigned (h : src.Tracks M R a wp) :
    (src.realigned wp).Tracks M R a wp ∧ wp ≤ (src.realigned wp).bufStartPos ∧
      (src.realigned wp).bufStartPos ≤ max wp src.bufStartPos ∧
      (src.realigned wp).buffer = src.buffer ∧ (src.realigned wp).sampleAt = src.sampleAt := by
  unfold SourceState.realigned
  split_ifs with hlt
  · have hb : src.buffer = [] := by
      by_contra hb
      have := h.ahead hb
      omega
    have hb' : src.buffer.drop (min (wp - src.bufStartPos) src.buffer.length) = [] := by
      simp [hb]
    refine ⟨⟨h.unseen, h.raw_eq, ?_, ?_, ?_, h.discard_le, h.reached, ?_⟩, le_refl wp,
      le_max_left _ _, hb'.trans hb.symm, ?_⟩
    · rw [hb']
      exact List.nil_suffix
    · exact fun hne => absurd hb' hne
    · exact fun _ => le_refl wp
    · exact fun hM hs hlt' => absurd hb (h.pending hM hs hlt')
    · funext p
      simp [sampleAt, hb]
  · exact ⟨h, not_lt.mp hlt, le_max_right _ _, rfl, rfl⟩

/-- What the window takes from a buffer that starts inside it. -/
theorem resize_take_eq_window {start wp w : ℕ} (xs : List α) (hlo : wp ≤ start)
    (hhi : start ≤ wp + w) :
    resize (List.replicate (min (start - wp) w) 0 ++
        xs.take (min (w - (start - wp)) xs.length)) w = window (placed start xs) wp w := by
  have hmin : min (start - wp) w = start - wp := by omega
  rw [hmin, window_placed xs hlo, resize_eq]
  apply List.ext_getElem?
  intro i
  simp only [List.getElem?_take, List.getElem?_append, List.length_append, List.length_replicate,
    List.length_take, List.getElem?_replicate]
  split_ifs <;> first | rfl | omega

/-- A covered window: the stretch `[wp, wp + w)` of the timeline, which is then behind the
cursor; the rest of the timeline does not move. -/
theorem takeWindow_covered (h : src.Tracks M R a wp) (he : src.expected = true)
    (hcov : wp + w ≤ src.frontier wp) :
    (src.takeWindow false wp w).1 = window src.sampleAt wp w ∧
      (src.takeWindow false wp w).2.Tracks M R a (wp + w) ∧
      (∀ p, wp + w ≤ p → (src.takeWindow false wp w).2.sampleAt p = src.sampleAt p) ∧
      ((src.takeWindow false wp w).2.buffer ≠ [] → src.buffer ≠ [] ∧
        (src.takeWindow false wp w).2.bufStartPos = max src.bufStartPos (wp + w)) := by
  have hdiscard := h.discard_le
  have hreached := h.reached
  rw [frontier_eq he] at hcov
  simp only [takeWindow, he, Bool.not_true, Bool.false_eq_true, if_false]
  by_cases hskip : (!src.seen || decide (wp + w ≤ src.bufStartPos)) = true
  · -- nothing of this source lies in the window
    rw [if_pos hskip]
    have hahead : src.buffer ≠ [] → wp + w ≤ src.bufStartPos := by
      intro hb
      simpa [h.seen_of_buffer hb] using hskip
    have hzero : ∀ i < w, src.sampleAt (wp + i) = 0 := by
      intro i hi
      by_cases hb : src.buffer = []
      · simp [sampleAt, hb]
      · have := hahead hb
        exact placed_of_lt _ (by omega)
    refine ⟨?_, h.advance (Nat.le_add_right wp w) hcov hahead, fun _ _ => rfl,
      fun hb => ⟨hb, (max_eq_left (hahead hb)).symm⟩⟩
    have hwindow : window src.sampleAt wp w = window (fun _ => 0) wp w := window_congr hzero
    show List.replicate w 0 = window src.sampleAt wp w
    rw [hwindow]
    simp [window]
  · rw [if_neg hskip]
    simp only [Bool.or_eq_true, Bool.not_eq_eq_eq_not, Bool.not_true, decide_eq_true_eq, not_or,
      Bool.not_eq_false, not_le] at hskip
    obtain ⟨hs, hstart⟩ := hskip
    rw [if_pos hs] at hcov
    obtain ⟨hre, hlo, hhi, hbuf, hsample⟩ := h.realigned
    have hs' : (src.realigned wp).seen = true := by simpa using hs
    have hraw : (src.realigned wp).rawNextPos = src.rawNextPos := by simp
    rw [← hsample, ← hbuf]
    generalize src.realigned wp = re at *
    have hhi' : re.bufStartPos ≤ wp + w := by omega
    have hmin : min (re.bufStartPos - wp) w = re.bufStartPos - wp := by omega
    simp only [List.length_replicate, hmin]
    refine ⟨?_, ?_, ?_, ?_⟩
    · have := resize_take_eq_window re.buffer hlo hhi'
      rwa [hmin] at this
    · refine hre.drained (by omega) ?_ (by omega) (by omega) (min_le_right _ _)
      rw [if_pos hs']
      omega
    · intro p hp
      exact placed_drop re.buffer (by omega)
    · intro hdrop
      have hlen : ¬ re.buffer.length ≤ min (w - (re.bufStartPos - wp)) re.buffer.length :=
        fun hle => hdrop (List.drop_eq_nil_iff.mpr hle)
      refine ⟨fun hnil => hlen (by simp [hnil]), ?_⟩
      rw [max_eq_right hstart.le]
      omega

end Tracks

end SourceState

end MeetilyLocal
