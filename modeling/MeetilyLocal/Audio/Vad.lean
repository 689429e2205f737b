import Mathlib.Data.Rat.Defs
import Mathlib.Data.Rat.Cast.Order
import Mathlib.Tactic.Linarith
import Mathlib.Tactic.NormNum
import MeetilyLocal.Audio.RingBuffer

/-!
# Speech segments

The embedding of `SpeechSegment`, of how one is made of what the detector has found
(`drain_segments`), and of the audio that `ContinuousVadProcessor` keeps of the utterance in progress
(`audio/vad.rs`). Times are computed in a number type that is a parameter: `f64` in the code, the
rationals where a result is about exact arithmetic. The detector itself is given from outside.
-/

namespace MeetilyLocal

/-- A number type that times are computed in. -/
class Instant (T : Type) extends Add T, Sub T, Mul T, Div T where
  /-- a count as a number of the type -/
  ofNat : ℕ → T

instance : Instant Float where
  ofNat := Float.ofNat

instance : Instant ℚ where
  ofNat n := n

@[simp] theorem Instant.ofNat_rat (n : ℕ) : (Instant.ofNat n : ℚ) = n := rfl

namespace Vad

/-- A complete speech segment detected by the VAD. -/
structure SpeechSegment (T : Type) : Type where
  /-- its samples, at 16 kHz -/
  samples : List Float32
  /-- where it starts, in milliseconds -/
  startTimestampMs : T
  /-- where it ends -/
  endTimestampMs : T
  /-- how sure the detector is -/
  confidence : Float32
  /-- which audio stream it came from -/
  source : DeviceType

variable {T : Type} [Instant T]

/-- What `drain_segments` makes of a segment of the detector: of the position of its first sample,
and its samples. -/
def ofDetected (source : DeviceType) (start : ℕ) (samples : List Float32) : SpeechSegment T :=
  let startMs := Instant.ofNat start / Instant.ofNat 16000 * Instant.ofNat 1000
  let endMs := Instant.ofNat (start + samples.length) / Instant.ofNat 16000 * Instant.ofNat 1000
  ⟨samples, startMs, endMs, 0.9, source⟩

/-- A segment that has samples ends after it has started. -/
theorem ofDetected_lt (source : DeviceType) (start : ℕ) {samples : List Float32}
    (h : samples ≠ []) :
    (ofDetected source start samples : SpeechSegment ℚ).startTimestampMs <
      (ofDetected source start samples : SpeechSegment ℚ).endTimestampMs := by
  have hpos : (0 : ℚ) < samples.length := by exact_mod_cast List.length_pos_of_ne_nil h
  simp only [ofDetected, Instant.ofNat_rat, Nat.cast_add]
  linarith

/-! ## The utterance in progress -/

universe u

variable {α : Type u}

/-- Cap on the in-progress partial buffer (30 s at 16 kHz). -/
def maxPartialSamples : ℕ := 30 * 16000

/-- The part of the processor that is not the detector's: 16 kHz audio since the last completed
segment. -/
structure ContinuousVadProcessor (α : Type u) : Type u where
  /-- current_utterance_16k -/
  currentUtterance16k : List α

namespace ContinuousVadProcessor

/-- Samples for the detector are also kept, unless there are too many already. -/
def feed16k (processor : ContinuousVadProcessor α) (samples : List α) : ContinuousVadProcessor α :=
  if processor.currentUtterance16k.length < maxPartialSamples then
    ⟨processor.currentUtterance16k ++ samples⟩
  else processor

/-- `process_audio`, of resampled samples; `finalised` is whether the detector has completed a
segment. -/
def processAudio (processor : ContinuousVadProcessor α) (samples : List α) (finalised : Bool) :
    ContinuousVadProcessor α :=
  if finalised then ⟨[]⟩ else processor.feed16k samples

/-- `flush`, of the tail of the downsampler: what is kept stays. -/
def flush (processor : ContinuousVadProcessor α) (tail : List α) : ContinuousVadProcessor α :=
  processor.feed16k tail

theorem feed16k_of_lt {processor : ContinuousVadProcessor α} (samples : List α)
    (h : processor.currentUtterance16k.length < maxPartialSamples) :
    (processor.feed16k samples).currentUtterance16k =
      processor.currentUtterance16k ++ samples := by
  rw [feed16k, if_pos h]

/-- What is kept only grows. -/
theorem prefix_feed16k (processor : ContinuousVadProcessor α) (samples : List α) :
    processor.currentUtterance16k <+: (processor.feed16k samples).currentUtterance16k := by
  rw [feed16k]
  split
  · exact List.prefix_append _ _
  · exact List.prefix_rfl

end ContinuousVadProcessor

end Vad

end MeetilyLocal
