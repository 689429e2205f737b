import Mathlib.Data.List.Basic
import MeetilyLocal.Library.Binary32

/-!
# The mixer's ring buffer

The embedding of `AudioMixerRingBuffer` (`audio/pipeline.rs`): two asynchronously arriving
streams, microphone and system, aligned by *sample position* on one timeline and handed out in
windows of fixed size at a shared cursor.

The sample type is a parameter with a zero. The code moves samples and fills with `0.0`; it
never computes with them, so every operation commutes with a change of sample type that keeps
zero (`AudioMixerRingBuffer.run_map`). Running the buffer over *labels* instead of samples thus
says where each sample of the real run came from.

Positions and counters are natural numbers, `VecDeque` is a list with its front first.
-/

namespace MeetilyLocal

universe u v

/-- The capture stream a chunk comes from (`recording_state.rs`). -/
inductive DeviceType : Type where
  /-- the microphone stream -/
  | microphone : DeviceType
  /-- the monitor of the system's output -/
  | system : DeviceType
  deriving DecidableEq, Repr

/-! ## One source -/

/-- Per-source bookkeeping. `rawNextPos` is the contiguous incoming position on the common
timeline; `bufStartPos` is the position of the buffer's front. -/
structure SourceState (α : Type u) : Type u where
  /-- this recording has the source at all -/
  expected : Bool
  /-- the source has delivered data and is anchored -/
  seen : Bool
  /-- samples received and not yet handed out -/
  buffer : List α
  /-- aligned position of the buffer's front -/
  bufStartPos : ℕ
  /-- aligned position of the next sample to arrive -/
  rawNextPos : ℕ
  /-- everything before this position was given up on -/
  discardBefore : ℕ

namespace SourceState

variable {α : Type u}

/-- The state of a source of a fresh ring buffer: expected, otherwise `Default`. -/
def fresh : SourceState α := ⟨true, false, [], 0, 0, 0⟩

/-- Where a source is anchored by its first chunk: where the other source already is, or at 0,
and in no case before what the cursor has given up on. -/
def anchor (src : SourceState α) (otherExpected otherSeen : Bool) (otherRawNextPos : ℕ) : ℕ :=
  max (if otherExpected && otherSeen then otherRawNextPos else 0) src.discardBefore

/-- The anchoring step of `ingest`. -/
def anchored (src : SourceState α) (otherExpected otherSeen : Bool) (otherRawNextPos : ℕ) :
    SourceState α :=
  if src.seen then src
  else
    { src with
      seen := true
      bufStartPos := src.anchor otherExpected otherSeen otherRawNextPos
      rawNextPos := src.anchor otherExpected otherSeen otherRawNextPos }

/-- The safety cap of `ingest`: drop the oldest samples above `maxBufferSize`. -/
def capped (src : SourceState α) (maxBufferSize : ℕ) : SourceState α :=
  if maxBufferSize < src.buffer.length then
    { src with
      buffer := src.buffer.drop (src.buffer.length - maxBufferSize)
      bufStartPos := src.bufStartPos + (src.buffer.length - maxBufferSize) }
  else src

/-- Append the part of a chunk that is not late, `samples` starting at `incomingStart`. -/
def absorb (src : SourceState α) (incomingStart : ℕ) (samples : List α) (maxBufferSize : ℕ) :
    SourceState α :=
  if incomingStart + samples.length ≤ src.discardBefore then
    -- entirely late: the cursor already emitted zeros for this whole range
    src
  else
    let dropPrefix := src.discardBefore - incomingStart
    if samples.length ≤ dropPrefix then src
    else
      { src with
        buffer := src.buffer ++ samples.drop dropPrefix
        bufStartPos := if src.buffer.isEmpty then incomingStart + dropPrefix
          else src.bufStartPos }.capped maxBufferSize

/-- Absorb newly arrived samples for one source. -/
def ingest (src : SourceState α) (maxBufferSize : ℕ) (otherExpected otherSeen : Bool)
    (otherRawNextPos : ℕ) (samples : List α) : SourceState α :=
  if !src.expected || samples.isEmpty then src
  else
    let src := src.anchored otherExpected otherSeen otherRawNextPos
    let incomingStart := src.rawNextPos
    { src with rawNextPos := incomingStart + samples.length }.absorb incomingStart samples
      maxBufferSize

/-- How much real data a source can vouch for; a source that is not expected tracks the
cursor. -/
def frontier (src : SourceState α) (windowPos : ℕ) : ℕ :=
  if !src.expected then windowPos else if !src.seen then 0 else src.rawNextPos

/-- Drop what sits before the window (`stale` leftovers) and move the front to its start. -/
def realigned (src : SourceState α) (wp : ℕ) : SourceState α :=
  if src.bufStartPos < wp then
    { src with
      buffer := src.buffer.drop (min (wp - src.bufStartPos) src.buffer.length)
      bufStartPos := wp }
  else src

variable [Zero α]

/-- `Vec::resize(n, 0.0)`. -/
def resize (xs : List α) (n : ℕ) : List α := xs.take n ++ List.replicate (n - xs.length) 0

/-- Build one source's window `[wp, wp + w)`, draining and repositioning its buffer. -/
def takeWindow (src : SourceState α) (forcedGap : Bool) (wp w : ℕ) : List α × SourceState α :=
  let windowEnd := wp + w
  if !src.expected then (List.replicate w 0, src)
  else if forcedGap then
    (List.replicate w 0,
      { src with
        discardBefore := max src.discardBefore windowEnd
        buffer := []
        bufStartPos := windowEnd })
  else if !src.seen || windowEnd ≤ src.bufStartPos then (List.replicate w 0, src)
  else
    let src := src.realigned wp
    let zerosPrefix := src.bufStartPos - wp
    let out := List.replicate (min zerosPrefix w) (0 : α)
    let take := min (w - out.length) src.buffer.length
    (resize (out ++ src.buffer.take take) w,
      { src with
        buffer := src.buffer.drop take
        bufStartPos := src.bufStartPos + take })

end SourceState

/-! ## Both sources -/

/-- The windows of both sources for one stretch of the timeline. -/
structure MixWindow (α : Type u) : Type u where
  /-- the microphone's samples -/
  mic : List α
  /-- the system's samples -/
  system : List α
  deriving DecidableEq

/-- The window of one device. -/
def MixWindow.source {α : Type u} (w : MixWindow α) : DeviceType → List α
  | .microphone => w.mic
  | .system => w.system

/-- Ring buffer for synchronized audio mixing. -/
structure AudioMixerRingBuffer (α : Type u) : Type u where
  /-- the microphone source -/
  mic : SourceState α
  /-- the system source -/
  system : SourceState α
  /-- size of the mixing window, in samples -/
  windowSizeSamples : ℕ
  /-- safety limit of each source's buffer -/
  maxBufferSize : ℕ
  /-- how far one source may lead before the cursor stops waiting for the other -/
  maxLagSamples : ℕ
  /-- shared cursor on the common timeline -/
  windowPos : ℕ
  /-- diagnostics only -/
  sampleCounter : ℕ

namespace AudioMixerRingBuffer

variable {α : Type u}

/-- A duration in milliseconds as a number of samples: `(sample_rate as f32 * ms / 1000.0) as
usize`, each of the three `f32` operations rounded. -/
def samplesOfMs (sampleRate ms : ℕ) : ℕ :=
  ⌊Binary32.round (Binary32.round (Binary32.round sampleRate * ms) / 1000)⌋.toNat

/-- A fresh ring buffer: 50 ms windows, a 4.8 s safety limit, at most 500 ms of lag. -/
def new (sampleRate : ℕ) : AudioMixerRingBuffer α where
  mic := SourceState.fresh
  system := SourceState.fresh
  windowSizeSamples := samplesOfMs sampleRate 50
  maxBufferSize := samplesOfMs sampleRate 4800
  maxLagSamples := samplesOfMs sampleRate 500
  windowPos := 0
  sampleCounter := 0

/-- Declare which sources this recording actually has. -/
def setExpectedSources (rb : AudioMixerRingBuffer α) (mic system : Bool) :
    AudioMixerRingBuffer α :=
  { rb with
    mic := { rb.mic with expected := mic }
    system := { rb.system with expected := system } }

/-- The source of one device. -/
def source (rb : AudioMixerRingBuffer α) : DeviceType → SourceState α
  | .microphone => rb.mic
  | .system => rb.system

/-- Hand a chunk to its source, together with where the other source is. -/
def addSamples (rb : AudioMixerRingBuffer α) (device : DeviceType) (samples : List α) :
    AudioMixerRingBuffer α :=
  let rb := { rb with sampleCounter := rb.sampleCounter + 1 }
  match device with
  | .microphone =>
    { rb with
      mic := rb.mic.ingest rb.maxBufferSize rb.system.expected rb.system.seen
        rb.system.rawNextPos samples }
  | .system =>
    { rb with
      system := rb.system.ingest rb.maxBufferSize rb.mic.expected rb.mic.seen
        rb.mic.rawNextPos samples }

/-- Whether the window at the cursor can be extracted, and which sources must then be filled
with zeros because they lag more than `maxLagSamples` behind; `none`: keep waiting. -/
def planWindow (rb : AudioMixerRingBuffer α) : Option (Bool × Bool) :=
  if !rb.mic.expected && !rb.system.expected then none
  else
    let wp := rb.windowPos
    let windowEnd := wp + rb.windowSizeSamples
    let micFrontier := rb.mic.frontier wp
    let sysFrontier := rb.system.frontier wp
    let micCovered := !rb.mic.expected || decide (windowEnd ≤ micFrontier)
    let sysCovered := !rb.system.expected || decide (windowEnd ≤ sysFrontier)
    if micCovered && sysCovered then some (false, false)
    else if !micCovered && !decide (rb.maxLagSamples < sysFrontier - wp) then none
    else if !sysCovered && !decide (rb.maxLagSamples < micFrontier - wp) then none
    else some (!micCovered, !sysCovered)

variable [Zero α]

/-- Extract the window at the cursor, when the plan allows it. -/
def extractWindow (rb : AudioMixerRingBuffer α) :
    Option (MixWindow α × AudioMixerRingBuffer α) :=
  match rb.planWindow with
  | none => none
  | some (micGap, sysGap) =>
    let wp := rb.windowPos
    let w := rb.windowSizeSamples
    let (micWindow, mic) := rb.mic.takeWindow micGap wp w
    let (sysWindow, system) := rb.system.takeWindow sysGap wp w
    some (⟨micWindow, sysWindow⟩,
      { rb with mic := mic, system := system, windowPos := rb.windowPos + w })

/-- The loop of `flush_final`: extract until the plan says to wait. `none` is exhausted fuel,
not an outcome of the code. -/
def drainWindows : ℕ → AudioMixerRingBuffer α →
    Option (List (MixWindow α) × AudioMixerRingBuffer α)
  | 0, _ => none
  | fuel + 1, rb =>
    match rb.extractWindow with
    | none => some ([], rb)
    | some (window, rb') =>
      (drainWindows fuel rb').map fun (windows, rb'') => (window :: windows, rb'')

/-- Drain every window the normal path resolves, then force out the remainder of both buffers
as one zero-padded window. -/
def flushFinal (fuel : ℕ) (rb : AudioMixerRingBuffer α) :
    Option (List (MixWindow α) × AudioMixerRingBuffer α) :=
  (drainWindows fuel rb).map fun (windows, rb) =>
    if !rb.mic.buffer.isEmpty || !rb.system.buffer.isEmpty then
      let w := rb.windowSizeSamples
      (windows ++ [⟨SourceState.resize rb.mic.buffer w, SourceState.resize rb.system.buffer w⟩],
        { rb with
          mic := { rb.mic with buffer := [] }
          system := { rb.system with buffer := [] }
          windowPos := rb.windowPos + w })
    else (windows, rb)

end AudioMixerRingBuffer

/-! ## Runs -/

/-- One call on the ring buffer. -/
inductive MixerOp (α : Type u) : Type u where
  /-- `add_samples(device, samples)` -/
  | addSamples : DeviceType → List α → MixerOp α
  /-- `extract_window()` -/
  | extractWindow : MixerOp α

namespace AudioMixerRingBuffer

variable {α : Type u} [Zero α]

/-- Execute one call; an extraction may emit a window. -/
def exec (rb : AudioMixerRingBuffer α) : MixerOp α →
    Option (MixWindow α) × AudioMixerRingBuffer α
  | .addSamples device samples => (none, rb.addSamples device samples)
  | .extractWindow =>
    match rb.extractWindow with
    | none => (none, rb)
    | some (window, rb') => (some window, rb')

/-- Execute a sequence of calls: the windows emitted, in order, and the final state. -/
def run (rb : AudioMixerRingBuffer α) : List (MixerOp α) →
    List (MixWindow α) × AudioMixerRingBuffer α
  | [] => ([], rb)
  | op :: ops => ((rb.exec op).1.toList ++ ((rb.exec op).2.run ops).1, ((rb.exec op).2.run ops).2)

/-- The ring buffer of a recording with the given sources. -/
def start (sampleRate : ℕ) (mic system : Bool) : AudioMixerRingBuffer α :=
  (new sampleRate).setExpectedSources mic system

end AudioMixerRingBuffer

/-- Everything received from one device in a sequence of calls, in arrival order. -/
def receivedFrom {α : Type u} (d : DeviceType) : List (MixerOp α) → List α
  | [] => []
  | .addSamples d' samples :: ops =>
    if d' = d then samples ++ receivedFrom d ops else receivedFrom d ops
  | .extractWindow :: ops => receivedFrom d ops

/-- The position at which the calls anchor a device that has not been seen: what `ingest`
computes at its first non-empty chunk (0 when there is none). -/
def anchorOf {α : Type u} [Zero α] (d : DeviceType) :
    AudioMixerRingBuffer α → List (MixerOp α) → ℕ
  | _, [] => 0
  | rb, .addSamples d' samples :: ops =>
    if d' = d ∧ samples ≠ [] then
      match d with
      | .microphone =>
        rb.mic.anchor rb.system.expected rb.system.seen rb.system.rawNextPos
      | .system => rb.system.anchor rb.mic.expected rb.mic.seen rb.mic.rawNextPos
    else anchorOf d (rb.exec (.addSamples d' samples)).2 ops
  | rb, .extractWindow :: ops => anchorOf d (rb.exec .extractWindow).2 ops

end MeetilyLocal
