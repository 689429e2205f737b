import MeetilyLocal.Audio.RingBufferLabels

/-!
# What the final flush keeps

`flush_final` drains what `extract_window` still resolves and forces out the rest of both buffers
as *one* window. That one window is `windowSizeSamples` long and starts at the cursor, for both
sources. So the flush is lossless exactly when what is left of each source past the last whole
window fits in it, and starts where it starts (`FlushFits`): one source may lead the other by far
more than a window, and its buffer may begin past the cursor.

The headline is `flushLossless_labelRun_iff`, for every reachable state.
-/

namespace MeetilyLocal

universe u v

open Timeline

/-! ## The sizes of a fresh ring buffer -/

namespace AudioMixerRingBuffer

/-- The last two roundings of `samplesOfMs` keep the order. -/
theorem floor_round_div_mono {q q' : ℚ} (hq : 0 ≤ q) (h : q ≤ q') :
    ⌊Binary32.round (Binary32.round q / 1000)⌋.toNat ≤
      ⌊Binary32.round (Binary32.round q' / 1000)⌋.toNat := by
  have hdiv := Binary32.round_mono (p := Binary32.round q / 1000)
    (div_nonneg (Binary32.round_nonneg hq) (by norm_num))
    (div_le_div_of_nonneg_right (Binary32.round_mono hq h) (by norm_num))
  exact Int.toNat_le_toNat (Int.floor_mono hdiv)

theorem samplesOfMs_mono (sampleRate : ℕ) {ms ms' : ℕ} (h : ms ≤ ms') :
    samplesOfMs sampleRate ms ≤ samplesOfMs sampleRate ms' := by
  have hrate : (0 : ℚ) ≤ Binary32.round sampleRate := Binary32.round_nonneg (by positivity)
  have hmul : Binary32.round sampleRate * ms ≤ Binary32.round sampleRate * ms' := by gcongr
  exact floor_round_div_mono (by positivity) hmul

theorem samplesOfMs_mono_rate {sampleRate sampleRate' : ℕ} (h : sampleRate ≤ sampleRate')
    (ms : ℕ) : samplesOfMs sampleRate ms ≤ samplesOfMs sampleRate' ms := by
  have hrate : (0 : ℚ) ≤ Binary32.round sampleRate := Binary32.round_nonneg (by positivity)
  have hround : Binary32.round (sampleRate : ℚ) ≤ Binary32.round sampleRate' :=
    Binary32.round_mono (by positivity) (by exact_mod_cast h)
  have hmul : Binary32.round (sampleRate : ℚ) * ms ≤ Binary32.round sampleRate' * ms := by gcongr
  exact floor_round_div_mono (by positivity) hmul

theorem samplesOfMs_two_mul (sampleRate ms : ℕ) :
    2 * samplesOfMs sampleRate ms ≤ samplesOfMs sampleRate (2 * ms) := by
  have hrate : (0 : ℚ) ≤ Binary32.round sampleRate := Binary32.round_nonneg (by positivity)
  have hms : Binary32.round sampleRate * (2 * ms : ℕ) = 2 * (Binary32.round sampleRate * ms) := by
    push_cast
    ring
  have hnonneg := Binary32.round_nonneg (q := Binary32.round sampleRate * ms) (by positivity)
  rw [samplesOfMs, samplesOfMs, hms, Binary32.round_two_mul (by positivity), mul_div_assoc,
    Binary32.round_two_mul (div_nonneg hnonneg (by norm_num))]
  generalize Binary32.round (Binary32.round (Binary32.round sampleRate * ms) / 1000) = q
  have hfloor : 2 * ⌊q⌋ ≤ ⌊2 * q⌋ := by
    rw [Int.le_floor]
    push_cast
    linarith [Int.floor_le q]
  omega

/-- What the flush relies on: two windows fit in the allowed lag, one in the safety limit. -/
structure Sized {α : Type u} (rb : AudioMixerRingBuffer α) : Prop where
  /-- the lag spans two windows at least -/
  lag : 2 * rb.windowSizeSamples ≤ rb.maxLagSamples
  /-- the safety limit spans one window at least -/
  limit : rb.windowSizeSamples ≤ rb.maxBufferSize

theorem sized_start {α : Type u} (sampleRate : ℕ) (mic system : Bool) :
    (start sampleRate mic system : AudioMixerRingBuffer α).Sized :=
  ⟨(samplesOfMs_two_mul sampleRate 50).trans (samplesOfMs_mono sampleRate (by norm_num)),
    samplesOfMs_mono sampleRate (by norm_num)⟩

variable {α : Type u}

/-! ## Leads and whole windows -/

/-- The aligned position up to which a source can vouch for its data. -/
def frontierOf (rb : AudioMixerRingBuffer α) (d : DeviceType) : ℕ :=
  (rb.source d).frontier rb.windowPos

/-- How many windows, from the cursor on, one source covers in full. -/
def windowsOf (rb : AudioMixerRingBuffer α) (d : DeviceType) : ℕ :=
  (rb.frontierOf d - rb.windowPos) / rb.windowSizeSamples

/-- How many windows, from the cursor on, every expected source covers in full. -/
def wholeWindows (rb : AudioMixerRingBuffer α) : ℕ :=
  match rb.mic.expected, rb.system.expected with
  | true, true => min (rb.windowsOf .microphone) (rb.windowsOf .system)
  | true, false => rb.windowsOf .microphone
  | false, true => rb.windowsOf .system
  | false, false => 0

/-- The end of the windows that every expected source covers. -/
def flushCursor (rb : AudioMixerRingBuffer α) : ℕ :=
  rb.windowPos + rb.wholeWindows * rb.windowSizeSamples

/-- What is left past `flushCursor` fits in one window, and starts where that window starts. -/
def FlushFits (rb : AudioMixerRingBuffer α) : Prop :=
  (∀ d, (rb.source d).expected = false) ∨
    0 < rb.windowSizeSamples ∧ ∀ d, (rb.source d).expected = true →
      rb.frontierOf d ≤ rb.flushCursor + rb.windowSizeSamples ∧
      (rb.flushCursor < rb.frontierOf d → (rb.source d).bufStartPos ≤ rb.flushCursor)

variable {rb : AudioMixerRingBuffer α}

theorem wholeWindows_le {d : DeviceType} (he : (rb.source d).expected = true) :
    rb.wholeWindows ≤ rb.windowsOf d := by
  cases d with
  | microphone =>
    have hm : rb.mic.expected = true := he
    cases hs : rb.system.expected <;> simp [wholeWindows, hm, hs]
  | system =>
    have hs : rb.system.expected = true := he
    cases hm : rb.mic.expected <;> simp [wholeWindows, hm, hs]

theorem exists_wholeWindows_eq (h : ∃ d, (rb.source d).expected = true) :
    ∃ d, (rb.source d).expected = true ∧ rb.windowsOf d = rb.wholeWindows := by
  obtain ⟨d, he⟩ := h
  rcases hm : rb.mic.expected with _ | _ <;> rcases hs : rb.system.expected with _ | _
  · cases d
    · exact absurd he (by simp [source, hm])
    · exact absurd he (by simp [source, hs])
  · exact ⟨.system, hs, by simp [wholeWindows, hm, hs]⟩
  · exact ⟨.microphone, hm, by simp [wholeWindows, hm, hs]⟩
  · rcases le_total (rb.windowsOf .microphone) (rb.windowsOf .system) with hle | hle
    · exact ⟨.microphone, hm, by simp [wholeWindows, hm, hs, hle]⟩
    · exact ⟨.system, hs, by simp [wholeWindows, hm, hs, hle]⟩

/-- Every expected source covers the whole windows. -/
theorem wholeWindows_covered (hpos : rb.wholeWindows ≠ 0) {d : DeviceType}
    (he : (rb.source d).expected = true) : rb.flushCursor ≤ rb.frontierOf d := by
  have hle := wholeWindows_le he
  have hmul : rb.wholeWindows * rb.windowSizeSamples ≤ rb.frontierOf d - rb.windowPos :=
    (Nat.mul_le_mul_right _ hle).trans (Nat.div_mul_le_self _ _)
  have hlead : rb.frontierOf d - rb.windowPos ≠ 0 := by
    intro hzero
    rw [windowsOf, hzero, Nat.zero_div] at hle
    exact hpos (Nat.le_zero.mp hle)
  rw [flushCursor]
  omega

/-- Some expected source does not cover one window more. -/
theorem exists_frontier_lt (hw : 0 < rb.windowSizeSamples)
    (h : ∃ d, (rb.source d).expected = true) :
    ∃ d, (rb.source d).expected = true ∧
      rb.frontierOf d < rb.flushCursor + rb.windowSizeSamples := by
  obtain ⟨d, he, hd⟩ := exists_wholeWindows_eq h
  refine ⟨d, he, ?_⟩
  have hlt := Nat.lt_div_mul_add hw (a := rb.frontierOf d - rb.windowPos)
  rw [flushCursor, ← hd, windowsOf]
  omega

/-- A cursor that every expected source has reached is not past the whole windows. -/
theorem le_flushCursor {m : ℕ} (hw : 0 < rb.windowSizeSamples)
    (h : ∃ d, (rb.source d).expected = true)
    (hm : ∀ d, (rb.source d).expected = true →
      rb.windowPos + m * rb.windowSizeSamples ≤ rb.frontierOf d) :
    rb.windowPos + m * rb.windowSizeSamples ≤ rb.flushCursor := by
  obtain ⟨d, he, hd⟩ := exists_wholeWindows_eq h
  have hle : m ≤ rb.wholeWindows := by
    rw [← hd, windowsOf, Nat.le_div_iff_mul_le hw]
    have := hm d he
    omega
  exact Nat.add_le_add_left (Nat.mul_le_mul_right _ hle) _

theorem covered_iff {d : DeviceType} (he : (rb.source d).expected = true) :
    rb.covered d = true ↔ rb.windowPos + rb.windowSizeSamples ≤ rb.frontierOf d := by
  simp [covered, he, frontierOf]

theorem covered_of_not_expected {d : DeviceType} (he : (rb.source d).expected = false) :
    rb.covered d = true := by
  simp [covered, he]

variable [Zero α]

/-- Extraction does not touch the frontiers. -/
theorem frontierOf_extractWindow {rb' : AudioMixerRingBuffer α} {window : MixWindow α}
    (hex : rb.extractWindow = some (window, rb')) {d : DeviceType}
    (he : (rb.source d).expected = true) : rb'.frontierOf d = rb.frontierOf d := by
  obtain ⟨-, -, hsource, -⟩ := extractWindow_eq_some hex
  have he' : (rb'.source d).expected = true := by rw [hsource, SourceState.takeWindow_expected, he]
  rw [frontierOf, frontierOf, SourceState.frontier_eq he, SourceState.frontier_eq he', hsource,
    SourceState.takeWindow_seen, SourceState.takeWindow_rawNextPos]

/-- Why a window was extracted: every expected source covers it, or one leads by more than the
allowed lag. -/
theorem extractWindow_why {rb' : AudioMixerRingBuffer α} {window : MixWindow α}
    (hex : rb.extractWindow = some (window, rb')) :
    (∀ d, (rb.source d).expected = true →
        rb.windowPos + rb.windowSizeSamples ≤ rb.frontierOf d) ∨
      ∃ d, (rb.source d).expected = true ∧
        rb.windowPos + rb.maxLagSamples < rb.frontierOf d := by
  obtain ⟨hwait, -⟩ := extractWindow_eq_some hex
  by_cases hall : ∀ d, rb.covered d = true
  · exact Or.inl fun d he => (covered_iff he).mp (hall d)
  · push Not at hall
    obtain ⟨d, hd⟩ := hall
    have hd' : rb.covered d = false := by simpa using hd
    have hlead := hwait d
    simp only [awaits, hd', Bool.not_false, Bool.true_and, decide_eq_false_iff_not, not_le]
      at hlead
    refine Or.inr ⟨d.other, ?_, by rw [frontierOf]; omega⟩
    by_contra hexp
    have hexp' : (rb.source d.other).expected = false := by simpa using hexp
    simp [SourceState.frontier, hexp'] at hlead

/-! ## What else a run keeps -/

/-- What else a run keeps: the cursor stays on the grid of windows, a source the recording does
not have stays empty, and only received samples make a source seen. -/
structure Settled (rb : AudioMixerRingBuffer α) (R : DeviceType → List α) : Prop where
  /-- the cursor is a whole number of windows -/
  grid : rb.windowSizeSamples ∣ rb.windowPos
  /-- a source that is not expected has no samples -/
  silent : ∀ d, (rb.source d).expected = false → (rb.source d).buffer = []
  /-- an expected source that was seen has received something -/
  heard : ∀ d, (rb.source d).expected = true → (rb.source d).seen = true → R d ≠ []

omit [Zero α] in
theorem settled_start (sampleRate : ℕ) (mic system : Bool) :
    (start sampleRate mic system : AudioMixerRingBuffer α).Settled fun _ => [] :=
  ⟨dvd_zero _, by rintro (_ | _) - <;> rfl, by rintro (_ | _) - hs <;> exact absurd hs nofun⟩

theorem settled_exec {rb : AudioMixerRingBuffer α} {R : DeviceType → List α}
    (h : rb.Settled R) (op : MixerOp α) : (rb.exec op).2.Settled (receivedAfter R op) := by
  have hshape := rb.sameShape_exec op
  refine ⟨?_, fun d he => ?_, fun d he hs => ?_⟩
  · rw [hshape.windowSize]
    rcases rb.exec_cases op with ⟨-, hcursor⟩ | ⟨window, rb', hex, hexec⟩
    · rw [hcursor]
      exact h.grid
    · obtain ⟨-, -, -, hcursor, -⟩ := extractWindow_eq_some hex
      rw [hexec, hcursor]
      exact h.grid.add dvd_rfl
  · rw [hshape.expected] at he
    cases op with
    | addSamples d' samples =>
      by_cases hd : d = d'
      · subst hd
        rw [exec, source_addSamples_self, SourceState.ingest_of_not_expected he]
        exact h.silent d he
      · rw [exec, source_addSamples_of_ne rb hd]
        exact h.silent d he
    | extractWindow =>
      rcases rb.exec_cases .extractWindow with ⟨hnone, -⟩ | ⟨window, rb', hex, hexec⟩
      · rcases hex : rb.extractWindow with _ | ⟨window, rb'⟩
        · rw [exec, hex]
          exact h.silent d he
        · simp [exec, hex] at hnone
      · obtain ⟨-, -, hsource, -⟩ := extractWindow_eq_some hex
        rw [hexec, hsource, SourceState.takeWindow_of_not_expected he]
        exact h.silent d he
  · rw [hshape.expected] at he
    cases op with
    | addSamples d' samples =>
      by_cases hd : d = d'
      · subst hd
        rw [receivedAfter, Function.update_self]
        by_cases hne : samples = []
        · rw [exec, source_addSamples_self, hne, SourceState.ingest_nil] at hs
          exact List.append_ne_nil_of_left_ne_nil (h.heard d he hs) _
        · exact List.append_ne_nil_of_right_ne_nil _ hne
      · rw [exec, source_addSamples_of_ne rb hd] at hs
        rw [receivedAfter, Function.update_of_ne hd]
        exact h.heard d he hs
    | extractWindow =>
      rcases hex : rb.extractWindow with _ | ⟨window, rb'⟩
      · rw [exec, hex] at hs
        exact h.heard d he hs
      · obtain ⟨-, -, hsource, -⟩ := extractWindow_eq_some hex
        rw [exec, hex, hsource, SourceState.takeWindow_seen] at hs
        exact h.heard d he hs

theorem settled_run {rb : AudioMixerRingBuffer α} {R : DeviceType → List α} (h : rb.Settled R)
    (ops : List (MixerOp α)) :
    (rb.run ops).2.Settled fun d => R d ++ receivedFrom d ops := by
  induction ops generalizing rb R with
  | nil => simpa [run, receivedFrom] using h
  | cons op ops ih =>
    have hrest := ih (settled_exec h op)
    simp only [receivedAfter_append] at hrest
    exact hrest

theorem sized_run {rb : AudioMixerRingBuffer α} (h : rb.Sized) (ops : List (MixerOp α)) :
    (rb.run ops).2.Sized := by
  have hshape := rb.sameShape_run ops
  refine ⟨?_, ?_⟩
  · rw [hshape.windowSize, hshape.maxLag]
    exact h.lag
  · rw [hshape.windowSize, hshape.maxBuffer]
    exact h.limit

/-! ## Draining -/

/-- One source's part of a sequence of windows, end to end. -/
def stream (d : DeviceType) (windows : List (MixWindow α)) : List α :=
  windows.flatMap (·.source d)

/-- **A drain** extracts one window after another, until the cursor waits. -/
theorem drainWindows_induction {motive : AudioMixerRingBuffer α → List (MixWindow α) → Prop}
    {rb' : AudioMixerRingBuffer α} (stop : rb'.extractWindow = none → motive rb' [])
    (next : ∀ {rb rb₁ : AudioMixerRingBuffer α} {window : MixWindow α} {windows : List (MixWindow α)},
      rb.extractWindow = some (window, rb₁) → motive rb₁ windows → motive rb (window :: windows))
    {fuel : ℕ} {rb : AudioMixerRingBuffer α} {windows : List (MixWindow α)}
    (hrun : drainWindows fuel rb = some (windows, rb')) : motive rb windows := by
  induction fuel generalizing rb windows with
  | zero => simp [drainWindows] at hrun
  | succ fuel ih =>
    rw [drainWindows] at hrun
    rcases hex : rb.extractWindow with _ | ⟨window, rb₁⟩
    · obtain ⟨rfl, rfl⟩ : windows = [] ∧ rb' = rb := by simpa [hex, eq_comm] using hrun
      exact stop hex
    · simp only [hex, Option.map_eq_some_iff, Prod.mk.injEq, Prod.exists] at hrun
      obtain ⟨rest, rb₂, hrest, rfl, rfl⟩ := hrun
      exact next hex (ih hrest)

/-- More fuel changes nothing. -/
theorem drainWindows_add_fuel {fuel : ℕ} {rb : AudioMixerRingBuffer α}
    {out : List (MixWindow α) × AudioMixerRingBuffer α} (h : drainWindows fuel rb = some out)
    (k : ℕ) : drainWindows (fuel + k) rb = some out := by
  induction fuel generalizing rb out with
  | zero => simp [drainWindows] at h
  | succ fuel ih =>
    rw [Nat.add_right_comm, drainWindows]
    rw [drainWindows] at h
    rcases hex : rb.extractWindow with _ | ⟨window, rb'⟩
    · rw [hex] at h
      exact h
    · simp only [hex, Option.map_eq_some_iff] at h ⊢
      obtain ⟨rest, hrest, rfl⟩ := h
      exact ⟨rest, ih hrest, rfl⟩

/-- What `n` windows that every expected source covers leave behind and hand out. -/
structure Drained (rb : AudioMixerRingBuffer α) (R : DeviceType → List α) (a : DeviceType → ℕ)
    (n : ℕ) (windows : List (MixWindow α)) (rb' : AudioMixerRingBuffer α) : Prop where
  /-- the parameters are the same -/
  shape : rb.SameShape rb'
  /-- the sources go on tracking what was received -/
  follows : rb'.Follows R a
  /-- a source that is not expected is untouched -/
  silent : ∀ d, (rb.source d).expected = false → rb'.source d = rb.source d
  /-- the cursor moved by `n` windows -/
  cursor : rb'.windowPos = rb.windowPos + n * rb.windowSizeSamples
  /-- the frontiers are the same -/
  frontier : ∀ d, (rb.source d).expected = true → rb'.frontierOf d = rb.frontierOf d
  /-- the windows are that stretch of the timeline -/
  stream_eq : ∀ d, (rb.source d).expected = true → stream d windows =
    window (rb.source d).sampleAt rb.windowPos (n * rb.windowSizeSamples)
  /-- the timeline past the cursor did not move -/
  ahead : ∀ d, (rb.source d).expected = true → ∀ p, rb'.windowPos ≤ p →
    (rb'.source d).sampleAt p = (rb.source d).sampleAt p
  /-- what is left starts where it started, or at the cursor -/
  start : ∀ d, (rb.source d).expected = true → (rb'.source d).buffer ≠ [] →
    (rb.source d).buffer ≠ [] ∧
      (rb'.source d).bufStartPos = max (rb.source d).bufStartPos rb'.windowPos

section Drain

variable {R : DeviceType → List α} {a : DeviceType → ℕ}

theorem drained_nil (h : rb.Follows R a) : rb.Drained R a 0 [] rb where
  shape := SameShape.refl rb
  follows := h
  silent := fun _ _ => rfl
  cursor := by rw [Nat.zero_mul, Nat.add_zero]
  frontier := fun _ _ => rfl
  stream_eq := fun _ _ => by rw [Nat.zero_mul]; rfl
  ahead := fun _ _ _ _ => rfl
  start := fun d he hne => ⟨hne, (max_eq_left ((h d he).ahead hne)).symm⟩

/-- A covered window is extracted, as that stretch of the timeline. -/
theorem extractWindow_covered (h : rb.Follows R a) (hexp : ∃ d, (rb.source d).expected = true)
    (hcov : ∀ d, (rb.source d).expected = true →
      rb.windowPos + rb.windowSizeSamples ≤ rb.frontierOf d) :
    ∃ window rb', rb.extractWindow = some (window, rb') ∧ rb.Drained R a 1 [window] rb' := by
  have hall : ∀ d, rb.covered d = true := by
    intro d
    rcases he : (rb.source d).expected with _ | _
    · exact covered_of_not_expected he
    · exact (covered_iff he).mpr (hcov d he)
  rcases hex : rb.extractWindow with _ | ⟨window, rb'⟩
  · rcases extractWindow_eq_none_iff.mp hex with hnone | ⟨d, hd⟩
    · obtain ⟨d, he⟩ := hexp
      simp [hnone d] at he
    · simp [awaits, hall d] at hd
  · obtain ⟨-, hwindow, hsource, hcursor, hw, hm, hl⟩ := extractWindow_eq_some hex
    simp only [hall, Bool.not_true] at hwindow hsource
    have hspec := fun d he => (h d he).takeWindow_covered he (hcov d he)
    refine ⟨window, rb', rfl, ⟨fun d => ?_, hw, hm, hl⟩, follows_extractWindow h hex, ?_,
      by rw [hcursor, Nat.one_mul], fun d he => frontierOf_extractWindow hex he, ?_, ?_, ?_⟩
    · rw [hsource, SourceState.takeWindow_expected]
    · intro d he
      rw [hsource, SourceState.takeWindow_of_not_expected he]
    · intro d he
      rw [stream, List.flatMap_singleton, hwindow, (hspec d he).1, Nat.one_mul]
    · intro d he p hp
      rw [hsource]
      rw [hcursor] at hp
      exact (hspec d he).2.2.1 p hp
    · intro d he hne
      rw [hsource] at hne ⊢
      rw [hcursor]
      exact (hspec d he).2.2.2 hne

theorem Drained.trans {rb₁ rb₂ : AudioMixerRingBuffer α} {m n : ℕ}
    {ws₁ ws₂ : List (MixWindow α)} (h₁ : rb.Drained R a m ws₁ rb₁)
    (h₂ : rb₁.Drained R a n ws₂ rb₂) : rb.Drained R a (m + n) (ws₁ ++ ws₂) rb₂ where
  shape := h₁.shape.trans h₂.shape
  follows := h₂.follows
  silent := fun d he => (h₂.silent d (by rw [h₁.silent d he, he])).trans (h₁.silent d he)
  cursor := by rw [h₂.cursor, h₁.cursor, h₁.shape.windowSize, Nat.add_mul, Nat.add_assoc]
  frontier := fun d he =>
    (h₂.frontier d ((h₁.shape.expected d).trans he)).trans (h₁.frontier d he)
  stream_eq := by
    intro d he
    have htail : window (rb₁.source d).sampleAt rb₁.windowPos (n * rb.windowSizeSamples) =
        window (rb.source d).sampleAt rb₁.windowPos (n * rb.windowSizeSamples) :=
      window_congr fun i _ => h₁.ahead d he _ (Nat.le_add_right _ _)
    have h₂' := h₂.stream_eq d ((h₁.shape.expected d).trans he)
    rw [h₁.shape.windowSize, htail, h₁.cursor] at h₂'
    rw [stream, List.flatMap_append, ← stream, ← stream, h₁.stream_eq d he, h₂', window_append,
      Nat.add_mul]
  ahead := by
    intro d he p hp
    have hle : rb₁.windowPos ≤ rb₂.windowPos := by
      rw [h₂.cursor]
      exact Nat.le_add_right _ _
    rw [h₂.ahead d ((h₁.shape.expected d).trans he) p hp, h₁.ahead d he p (hle.trans hp)]
  start := by
    intro d he hne
    have hle : rb₁.windowPos ≤ rb₂.windowPos := by
      rw [h₂.cursor]
      exact Nat.le_add_right _ _
    obtain ⟨hne₁, hstart₂⟩ := h₂.start d ((h₁.shape.expected d).trans he) hne
    obtain ⟨hne₀, hstart₁⟩ := h₁.start d he hne₁
    exact ⟨hne₀, by rw [hstart₂, hstart₁, max_assoc, max_eq_right hle]⟩

/-- The drain loop takes every whole window. -/
theorem drainWindows_covered {n : ℕ} (h : rb.Follows R a)
    (hexp : ∃ d, (rb.source d).expected = true)
    (hcov : n ≠ 0 → ∀ d, (rb.source d).expected = true →
      rb.windowPos + n * rb.windowSizeSamples ≤ rb.frontierOf d) :
    ∃ windows rb', rb.Drained R a n windows rb' ∧ ∀ fuel, drainWindows (fuel + n) rb =
      (drainWindows fuel rb').map fun out => (windows ++ out.1, out.2) := by
  induction n generalizing rb with
  | zero => exact ⟨[], rb, drained_nil h, fun fuel => by simp⟩
  | succ n ih =>
    replace hcov := hcov (Nat.succ_ne_zero n)
    rw [Nat.succ_mul] at hcov
    obtain ⟨window, rb₁, hex, hone⟩ := extractWindow_covered h hexp fun d he => by
      have := hcov d he
      omega
    have hexp₁ : ∃ d, (rb₁.source d).expected = true := by
      obtain ⟨d, he⟩ := hexp
      exact ⟨d, (hone.shape.expected d).trans he⟩
    obtain ⟨windows, rb', hrest, hloop⟩ := ih hone.follows hexp₁ fun _ d he => by
      have he' := (hone.shape.expected d).symm.trans he
      rw [hone.cursor, hone.shape.windowSize, hone.frontier d he']
      have := hcov d he'
      omega
    refine ⟨window :: windows, rb', ?_, fun fuel => ?_⟩
    · rw [Nat.add_comm]
      exact hone.trans hrest
    · rw [← Nat.add_assoc, drainWindows, hex]
      simp only [hloop fuel, Option.map_map]
      rfl

/-- When what is left past the whole windows fits in one, the drain loop stops there. -/
theorem extractWindow_flushCursor {n : ℕ} {windows : List (MixWindow α)}
    {rb' : AudioMixerRingBuffer α} (hsize : rb.Sized) (h : rb.Drained R a n windows rb')
    (hn : rb'.windowPos = rb.flushCursor) (hw : 0 < rb.windowSizeSamples)
    (hexp : ∃ d, (rb.source d).expected = true)
    (hfit : ∀ d, (rb.source d).expected = true →
      rb.frontierOf d ≤ rb.flushCursor + rb.windowSizeSamples) :
    rb'.extractWindow = none := by
  rcases hex : rb'.extractWindow with _ | ⟨window, rb''⟩
  · rfl
  · obtain ⟨d, he, hlt⟩ := exists_frontier_lt hw hexp
    have hlag := hsize.lag
    rcases extractWindow_why hex with hall | ⟨d', he', hlead⟩
    · have := hall d ((h.shape.expected d).trans he)
      rw [h.frontier d he, hn, h.shape.windowSize] at this
      omega
    · rw [h.shape.expected] at he'
      have := hfit d' he'
      rw [h.frontier d' he', hn, h.shape.maxLag] at hlead
      omega

/-- Where a drain ends, whatever it extracted on the way. -/
theorem drainWindows_end {fuel : ℕ} {windows : List (MixWindow α)}
    {rb' : AudioMixerRingBuffer α} (hrun : drainWindows fuel rb = some (windows, rb')) :
    rb'.windowPos = rb.windowPos + windows.length * rb.windowSizeSamples ∧
      rb.SameShape rb' ∧
      (windows ≠ [] →
        (∀ d, (rb.source d).expected = true → rb'.windowPos ≤ rb.frontierOf d) ∨
          ∃ d, (rb.source d).expected = true ∧
            rb'.windowPos + rb.maxLagSamples < rb.frontierOf d + rb.windowSizeSamples) := by
  refine drainWindows_induction (motive := fun rb windows =>
    rb'.windowPos = rb.windowPos + windows.length * rb.windowSizeSamples ∧ rb.SameShape rb' ∧
      (windows ≠ [] →
        (∀ d, (rb.source d).expected = true → rb'.windowPos ≤ rb.frontierOf d) ∨
          ∃ d, (rb.source d).expected = true ∧
            rb'.windowPos + rb.maxLagSamples < rb.frontierOf d + rb.windowSizeSamples)) ?_ ?_ hrun
  · exact fun _ => ⟨by simp, SameShape.refl _, fun hne => absurd rfl hne⟩
  · rintro rb rb₁ window rest hex ⟨hcursor, hshape, hwhy⟩
    have hshape₁ := sameShape_extractWindow hex
    obtain ⟨-, -, -, hcursor₁, -⟩ := extractWindow_eq_some hex
    have hfront := fun d he => frontierOf_extractWindow hex (d := d) he
    rw [hshape₁.windowSize] at hcursor
    refine ⟨?_, hshape₁.trans hshape, fun _ => ?_⟩
    · rw [hcursor, hcursor₁, List.length_cons, Nat.succ_mul]
      omega
    · by_cases hnil : rest = []
      · -- this window was the last one
        rw [hnil, List.length_nil, Nat.zero_mul, Nat.add_zero, hcursor₁] at hcursor
        rw [hcursor]
        rcases extractWindow_why hex with hall | ⟨d, he, hlead⟩
        · exact Or.inl hall
        · exact Or.inr ⟨d, he, by omega⟩
      · rcases hwhy hnil with hall | ⟨d, he, hlead⟩
        · refine Or.inl fun d he => ?_
          rw [← hfront d he]
          exact hall d ((hshape₁.expected d).trans he)
        · rw [hshape₁.expected] at he
          rw [hfront d he, hshape₁.windowSize, hshape₁.maxLag] at hlead
          exact Or.inr ⟨d, he, hlead⟩

/-- The length of what a drain hands out for one source. -/
theorem length_stream_drainWindows {fuel : ℕ} {windows : List (MixWindow α)}
    {rb' : AudioMixerRingBuffer α} (h : rb.Follows R a)
    (hrun : drainWindows fuel rb = some (windows, rb')) (d : DeviceType) :
    (stream d windows).length = windows.length * rb.windowSizeSamples := by
  refine drainWindows_induction (motive := fun rb windows => rb.Follows R a →
    (stream d windows).length = windows.length * rb.windowSizeSamples) ?_ ?_ hrun h
  · intro _ _
    simp [stream]
  · intro rb rb₁ window rest hex ih h
    obtain ⟨-, -, -, -, hw, -⟩ := extractWindow_eq_some hex
    have hlen := ih (follows_extractWindow h hex)
    rw [hw] at hlen
    rw [stream, List.flatMap_cons, ← stream, List.length_append, length_extracted h hex, hlen,
      List.length_cons, Nat.succ_mul, Nat.add_comm]

/-! ## The forced remainder -/

/-- What is left of both sources, as one window. -/
def remainder (rb : AudioMixerRingBuffer α) : MixWindow α :=
  ⟨SourceState.resize rb.mic.buffer rb.windowSizeSamples,
    SourceState.resize rb.system.buffer rb.windowSizeSamples⟩

theorem source_remainder (rb : AudioMixerRingBuffer α) (d : DeviceType) :
    rb.remainder.source d = SourceState.resize (rb.source d).buffer rb.windowSizeSamples := by
  cases d <;> rfl

/-- Inversion for `flushFinal`: a drain, and the remainder unless both buffers are empty. -/
theorem flushFinal_eq_some {fuel : ℕ} {windows : List (MixWindow α)}
    {rb' : AudioMixerRingBuffer α} (h : flushFinal fuel rb = some (windows, rb')) :
    ∃ drained rb₁, drainWindows fuel rb = some (drained, rb₁) ∧
      (((∀ d, (rb₁.source d).buffer = []) ∧ windows = drained) ∨
        ((∃ d, (rb₁.source d).buffer ≠ []) ∧ windows = drained ++ [rb₁.remainder])) := by
  simp only [flushFinal, Option.map_eq_some_iff, Prod.exists] at h
  obtain ⟨drained, rb₁, hdrain, hout⟩ := h
  refine ⟨drained, rb₁, hdrain, ?_⟩
  split_ifs at hout with hleft
  · refine Or.inr ⟨?_, (congrArg Prod.fst hout).symm⟩
    simp only [Bool.or_eq_true, Bool.not_eq_eq_eq_not, Bool.not_true, List.isEmpty_eq_false_iff]
      at hleft
    exact hleft.elim (fun hm => ⟨.microphone, hm⟩) fun hs => ⟨.system, hs⟩
  · simp only [Bool.or_eq_true, Bool.not_eq_eq_eq_not, Bool.not_true, List.isEmpty_eq_false_iff,
      not_or, not_not] at hleft
    refine Or.inl ⟨?_, (congrArg Prod.fst hout).symm⟩
    rintro (_ | _)
    · exact hleft.1
    · exact hleft.2

/-- A drain that ends makes a flush that ends. -/
theorem exists_flushFinal {fuel : ℕ} {drained : List (MixWindow α)}
    {rb₁ : AudioMixerRingBuffer α} (h : drainWindows fuel rb = some (drained, rb₁)) :
    ∃ windows rb', flushFinal fuel rb = some (windows, rb') := by
  rw [flushFinal, h]
  exact ⟨_, _, rfl⟩

/-- A buffer cut or padded to a window is the window at its start. -/
theorem resize_eq_window (start : ℕ) (xs : List α) (w : ℕ) :
    SourceState.resize xs w = window (placed start xs) start w := by
  rw [window_placed xs (le_refl start), SourceState.resize_eq, Nat.sub_self, Nat.sub_zero,
    List.replicate_zero, List.nil_append]

/-- The remainder of a source that starts at the cursor is the window at the cursor. -/
theorem remainder_eq_window {d : DeviceType}
    (hstart : (rb.source d).buffer ≠ [] → (rb.source d).bufStartPos = rb.windowPos) :
    rb.remainder.source d =
      window (rb.source d).sampleAt rb.windowPos rb.windowSizeSamples := by
  rw [source_remainder, resize_eq_window rb.windowPos]
  refine window_congr fun i _ => ?_
  by_cases hne : (rb.source d).buffer = []
  · simp [SourceState.sampleAt, hne]
  · rw [SourceState.sampleAt, hstart hne]

/-- **Lossless.** The flush ends, and the windows it returns have each buffered sample in exactly
one place: the aligned one. -/
def FlushLossless (rb : AudioMixerRingBuffer α) : Prop :=
  ∃ fuel windows rb', flushFinal fuel rb = some (windows, rb') ∧
    ∀ d i x, (rb.source d).buffer[i]? = some x →
      ∀ p, (stream d windows)[p]? = some x ↔
        rb.windowPos + p = (rb.source d).bufStartPos + i

omit [Zero α] in
/-- A source with data past the cursor still holds its last sample. -/
theorem buffer_ne_nil (h : rb.Follows R a) (hset : rb.Settled R) (hlimit : 0 < rb.maxBufferSize)
    {d : DeviceType} (he : (rb.source d).expected = true)
    (hlt : rb.windowPos < rb.frontierOf d) : (rb.source d).buffer ≠ [] := by
  rw [frontierOf, SourceState.frontier_eq he] at hlt
  rcases hs : (rb.source d).seen with _ | _
  · simp [hs] at hlt
  · have hR := List.length_pos_of_ne_nil (hset.heard d he hs)
    have hraw := (h d he).raw_eq hs
    rw [if_pos hs] at hlt
    exact (h d he).pending hlimit hs (by omega)

omit [Zero α] in
/-- A non-empty buffer ends at the frontier. -/
theorem end_eq_frontier (h : rb.Follows R a) {d : DeviceType}
    (he : (rb.source d).expected = true) (hne : (rb.source d).buffer ≠ []) :
    (rb.source d).bufStartPos + (rb.source d).buffer.length = rb.frontierOf d := by
  rw [(h d he).ends hne, frontierOf, SourceState.frontier_eq he,
    if_pos ((h d he).seen_of_buffer hne)]

/-- What is left after the whole windows starts at the cursor, when it fits. -/
theorem Drained.start_eq_cursor {n : ℕ} {windows : List (MixWindow α)}
    {rb' : AudioMixerRingBuffer α} (h : rb.Drained R a n windows rb') {d : DeviceType}
    (he : (rb.source d).expected = true)
    (hfit : rb'.windowPos < rb.frontierOf d → (rb.source d).bufStartPos ≤ rb'.windowPos)
    (hne : (rb'.source d).buffer ≠ []) : (rb'.source d).bufStartPos = rb'.windowPos := by
  have he' := (h.shape.expected d).trans he
  have hend := end_eq_frontier h.follows he' hne
  have hlen := List.length_pos_of_ne_nil hne
  have hahead := (h.follows d he').ahead hne
  rw [h.frontier d he] at hend
  rw [(h.start d he hne).2, max_eq_right (hfit (by omega))]

/-- A stretch of the timeline that reaches past a buffered sample has it in exactly one place. -/
theorem getElem?_window_iff {d : DeviceType} (hnodup : (rb.source d).buffer.Nodup) {i : ℕ} {x : α}
    (hx : (rb.source d).buffer[i]? = some x) (hne : x ≠ 0) {len : ℕ}
    (hhi : (rb.source d).bufStartPos + i < rb.windowPos + len) (p : ℕ) :
    (window (rb.source d).sampleAt rb.windowPos len)[p]? = some x ↔
      rb.windowPos + p = (rb.source d).bufStartPos + i := by
  rw [getElem?_window]
  constructor
  · intro h
    split_ifs at h
    have hval : (rb.source d).sampleAt (rb.windowPos + p) = x := Option.some.inj h
    obtain ⟨hle, hat⟩ := getElem?_of_placed_ne_zero (by rwa [← hval] at hne)
    rw [← SourceState.sampleAt, hval] at hat
    have hlt := (List.getElem?_eq_some_iff.mp hx).1
    have hidx := (List.getElem?_inj hlt hnodup).mp (hx.trans hat.symm)
    omega
  · intro h
    rw [if_pos (by omega), h]
    exact congrArg some (placed_of_getElem? hx)

/-- Enough for a lossless flush. -/
theorem FlushFits.flushLossless (hfit : rb.FlushFits) (h : rb.Follows R a) (hset : rb.Settled R)
    (hsize : rb.Sized) (hnodup : ∀ d, (R d).Nodup) (hzero : ∀ d, 0 ∉ R d) :
    rb.FlushLossless := by
  by_cases hexp : ∃ d, (rb.source d).expected = true
  · have hfit' := hfit.resolve_left fun hnone => by
      obtain ⟨d, he⟩ := hexp
      simp [hnone d] at he
    obtain ⟨hw, hfit'⟩ := hfit'
    obtain ⟨drained, rb₁, hdrained, hloop⟩ := drainWindows_covered h hexp
      fun hne d he => wholeWindows_covered hne he
    have hcursor : rb₁.windowPos = rb.flushCursor := hdrained.cursor
    have hstop := extractWindow_flushCursor hsize hdrained hcursor hw hexp fun d he =>
      (hfit' d he).1
    have hend : drainWindows (1 + rb.wholeWindows) rb = some (drained, rb₁) := by
      rw [hloop, drainWindows, hstop, Option.map_some, List.append_nil]
    obtain ⟨windows, rb', hflush⟩ := exists_flushFinal hend
    refine ⟨_, windows, rb', hflush, fun d i x hx => ?_⟩
    have hmem := List.mem_of_getElem? hx
    have he : (rb.source d).expected = true := by
      by_contra he
      simp [hset.silent d (by simpa using he)] at hmem
    have hne : x ≠ 0 := by
      rintro rfl
      exact hzero d ((h d he).tail.subset hmem)
    have hnodup' := (hnodup d).sublist (h d he).tail.sublist
    have hi := (List.getElem?_eq_some_iff.mp hx).1
    have hstart : ∀ hleft, _ := fun hleft => hdrained.start_eq_cursor he
      (by rw [hcursor]; exact (hfit' d he).2) hleft
    obtain ⟨drained', rb₁', hend', hwindows⟩ := flushFinal_eq_some hflush
    obtain ⟨rfl, rfl⟩ : drained' = drained ∧ rb₁' = rb₁ := by
      simpa [hend, eq_comm] using hend'
    rcases hwindows with ⟨hempty, rfl⟩ | ⟨-, rfl⟩
    · -- nothing is left past the whole windows
      rw [hdrained.stream_eq d he]
      refine getElem?_window_iff hnodup' hx hne ?_
      rw [← flushCursor, ← hcursor]
      by_contra hle
      have hpast := hdrained.ahead d he _ (not_lt.mp hle)
      rw [SourceState.sampleAt, hempty d, placed_nil, SourceState.sampleAt,
        placed_of_getElem? hx] at hpast
      exact hne hpast.symm
    · have hrest : rb₁'.remainder.source d =
          window (rb.source d).sampleAt rb.flushCursor rb.windowSizeSamples := by
        rw [remainder_eq_window hstart, hdrained.shape.windowSize, hcursor]
        exact window_congr fun j _ => hdrained.ahead d he _ (by rw [hcursor]; omega)
      rw [stream, List.flatMap_append, List.flatMap_singleton, ← stream,
        hdrained.stream_eq d he, hrest, flushCursor, window_append]
      refine getElem?_window_iff hnodup' hx hne ?_
      have hlast := end_eq_frontier h he (List.ne_nil_of_mem hmem)
      have hroom := (hfit' d he).1
      rw [flushCursor] at hroom
      omega
  · -- a recording without sources has nothing to lose
    have hnone : ∀ d, (rb.source d).expected = false := fun d => by
      simpa using not_exists.mp hexp d
    have hstop : rb.extractWindow = none := extractWindow_eq_none_iff.mpr (Or.inl hnone)
    have hend : drainWindows 1 rb = some ([], rb) := by rw [drainWindows, hstop]
    obtain ⟨windows, rb', hflush⟩ := exists_flushFinal hend
    refine ⟨_, windows, rb', hflush, fun d i x hx => ?_⟩
    simp [hset.silent d (hnone d)] at hx

omit [Zero α] in
/-- A flush that stops short of a frontier loses the sample there. -/
theorem not_lossless_of_short (h : rb.Follows R a) (hset : rb.Settled R)
    (hlimit : 0 < rb.maxBufferSize) {windows : List (MixWindow α)} {d : DeviceType}
    (he : (rb.source d).expected = true)
    (hshort : rb.windowPos + (stream d windows).length < rb.frontierOf d) :
    ¬ ∀ i x, (rb.source d).buffer[i]? = some x →
      ∀ p, (stream d windows)[p]? = some x ↔
        rb.windowPos + p = (rb.source d).bufStartPos + i := by
  intro hall
  have hne := buffer_ne_nil h hset hlimit he (by omega)
  have hend := end_eq_frontier h he hne
  have hlen := List.length_pos_of_ne_nil hne
  have hlast : (rb.source d).buffer.length - 1 < (rb.source d).buffer.length := by omega
  have hmiss := (hall _ _ (List.getElem?_eq_getElem hlast)
    (rb.frontierOf d - 1 - rb.windowPos)).mpr (by omega)
  have := (List.getElem?_eq_some_iff.mp hmiss).1
  omega

/-- Without a window size, the drain loop of a recording with a source never ends. -/
theorem drainWindows_of_size_zero (hset : rb.Settled R) (hw : rb.windowSizeSamples = 0)
    (hexp : ∃ d, (rb.source d).expected = true) (fuel : ℕ) : drainWindows fuel rb = none := by
  have hpos : rb.windowPos = 0 := by
    have := hset.grid
    rwa [hw, zero_dvd_iff] at this
  induction fuel generalizing rb with
  | zero => rfl
  | succ fuel ih =>
    rw [drainWindows]
    rcases hex : rb.extractWindow with _ | ⟨window, rb'⟩
    · rcases extractWindow_eq_none_iff.mp hex with hnone | ⟨d, hd⟩
      · obtain ⟨d, he⟩ := hexp
        simp [hnone d] at he
      · simp [awaits, covered, hpos, hw] at hd
    · obtain ⟨-, -, hsource, hcursor, hw', -, -⟩ := extractWindow_eq_some hex
      have hset' : rb'.Settled R := by
        have := settled_exec hset .extractWindow
        simpa [exec, hex, receivedAfter] using this
      have hexp' : ∃ d, (rb'.source d).expected = true := by
        obtain ⟨d, he⟩ := hexp
        exact ⟨d, by rw [hsource, SourceState.takeWindow_expected, he]⟩
      simp only [ih hset' (hw'.trans hw) hexp' (by rw [hcursor, hpos, hw]), Option.map_none]

/-- Needed for a lossless flush. -/
theorem FlushLossless.flushFits (hloss : rb.FlushLossless) (h : rb.Follows R a)
    (hset : rb.Settled R) (hsize : rb.Sized) (hzero : ∀ d, 0 ∉ R d) : rb.FlushFits := by
  obtain ⟨fuel, windows, rb', hflush, hall⟩ := hloss
  obtain ⟨drained, rb₁, hdrain, hwindows⟩ := flushFinal_eq_some hflush
  by_cases hexp : ∃ d, (rb.source d).expected = true
  · have hw : 0 < rb.windowSizeSamples := by
      rcases Nat.eq_zero_or_pos rb.windowSizeSamples with hw | hw
      · rw [drainWindows_of_size_zero hset hw hexp] at hdrain
        exact absurd hdrain nofun
      · exact hw
    have hlimit : 0 < rb.maxBufferSize := lt_of_lt_of_le hw hsize.limit
    have hlag := hsize.lag
    obtain ⟨hcursor, hshape, hwhy⟩ := drainWindows_end hdrain
    -- the windows end at most one window after the last extraction
    have hlength : ∀ d, (stream d windows).length ≤
        drained.length * rb.windowSizeSamples + rb.windowSizeSamples := by
      intro d
      have hlen := length_stream_drainWindows h hdrain d
      rcases hwindows with ⟨-, rfl⟩ | ⟨-, rfl⟩
      · omega
      · rw [stream, List.flatMap_append, List.flatMap_singleton, ← stream, List.length_append, hlen,
          source_remainder, resize_eq_window 0, length_window, hshape.windowSize]
    have hroom : ∀ d, (rb.source d).expected = true →
        rb.frontierOf d ≤ rb.flushCursor + rb.windowSizeSamples := by
      intro d he
      by_contra hlt
      have hlen := hlength d
      by_cases hnil : drained = []
      · refine not_lossless_of_short h hset hlimit he ?_ (hall d)
        rw [hnil, List.length_nil, Nat.zero_mul] at hlen
        rw [flushCursor] at hlt
        omega
      · rcases hwhy hnil with hreach | ⟨d', he', hlead⟩
        · rw [hcursor] at hreach
          have := le_flushCursor hw hexp hreach
          exact not_lossless_of_short h hset hlimit he (by omega) (hall d)
        · have hlen' := hlength d'
          exact not_lossless_of_short h hset hlimit he' (by omega) (hall d')
    refine Or.inr ⟨hw, fun d he => ⟨hroom d he, fun hpast => ?_⟩⟩
    -- the whole windows are what the drain loop took
    obtain ⟨drained', rb₁', hdrained, hloop⟩ := drainWindows_covered h hexp
      fun hne d he => wholeWindows_covered hne he
    have hcursor' : rb₁'.windowPos = rb.flushCursor := hdrained.cursor
    have hstop := extractWindow_flushCursor hsize hdrained hcursor' hw hexp hroom
    have hend : drainWindows (1 + rb.wholeWindows) rb = some (drained', rb₁') := by
      rw [hloop, drainWindows, hstop, Option.map_some, List.append_nil]
    obtain ⟨rfl, rfl⟩ : drained' = drained ∧ rb₁' = rb₁ := by
      have h₁ := drainWindows_add_fuel hend fuel
      have h₂ := drainWindows_add_fuel hdrain (1 + rb.wholeWindows)
      rw [Nat.add_comm fuel] at h₂
      simpa using h₁.symm.trans h₂
    -- the remainder puts the first sample left at the cursor
    by_contra hlate
    have he' := (hdrained.shape.expected d).trans he
    have hne := buffer_ne_nil h hset hlimit he (lt_of_le_of_lt (Nat.le_add_right _ _) hpast)
    obtain ⟨x, hx⟩ : ∃ x, (rb.source d).buffer[0]? = some x :=
      ⟨_, List.getElem?_eq_getElem (List.length_pos_of_ne_nil hne)⟩
    have hx0 : x ≠ 0 := by
      rintro rfl
      exact hzero d ((h d he).tail.subset (List.mem_of_getElem? hx))
    have hat : (rb₁'.source d).sampleAt (rb.source d).bufStartPos = x := by
      rw [hdrained.ahead d he _ (by omega)]
      exact placed_of_getElem? hx
    have hne' : (rb₁'.source d).buffer ≠ [] := by
      intro hnil
      rw [SourceState.sampleAt, hnil, placed_nil] at hat
      exact hx0 hat.symm
    have hstart := (hdrained.start d he hne').2
    rw [max_eq_left (by omega)] at hstart
    rcases hwindows with ⟨hempty, -⟩ | ⟨-, rfl⟩
    · exact hne' (hempty d)
    · have hplace : (stream d (drained' ++ [rb₁'.remainder]))[rb.wholeWindows *
          rb.windowSizeSamples]? = some x := by
        rw [stream, List.flatMap_append, List.flatMap_singleton, ← stream, hdrained.stream_eq d he,
          List.getElem?_append_right (by rw [length_window]), length_window, Nat.sub_self,
          source_remainder, resize_eq_window (rb₁'.source d).bufStartPos,
          getElem?_window_of_lt (by rwa [hdrained.shape.windowSize]), Nat.add_zero,
          ← SourceState.sampleAt, hstart, hat]
      have := (hall d 0 x hx _).mp hplace
      rw [← flushCursor] at this
      omega
  · exact Or.inl fun d => by simpa using not_exists.mp hexp d

end Drain

/-! ## Every reachable state -/

theorem nodup_labels (first n : ℕ) : (labels first n).Nodup := by
  refine List.Nodup.map (fun i j hij => ?_) List.nodup_range
  simpa using hij

theorem zero_notMem_labels (first n : ℕ) : (0 : Label) ∉ labels first n := by
  intro h
  obtain ⟨i, -, hi⟩ := List.mem_map.mp h
  exact Label.nth_ne_zero _ hi

/-- What holds of every reachable state of a label run. -/
structure Labelled (rb : AudioMixerRingBuffer Label) (R : DeviceType → List Label)
    (a : DeviceType → ℕ) : Prop where
  /-- the sources track what was received -/
  follows : rb.Follows R a
  /-- the cursor is on the grid, and silence stays silent -/
  settled : rb.Settled R
  /-- lag and limit fit the window -/
  sized : rb.Sized
  /-- no label arrives twice -/
  nodup : ∀ d, (R d).Nodup
  /-- no label is silence -/
  zero_notMem : ∀ d, 0 ∉ R d

theorem exists_labelled {β : Type v} (sampleRate : ℕ) (mic system : Bool)
    (ops : List (MixerOp β)) :
    ∃ R a, (labelRun sampleRate mic system ops).2.Labelled R a := by
  have hfollows := follows_run (follows_start sampleRate mic system _)
    (anchoredBy_start sampleRate mic system (labelled (fun _ => 0) ops))
  have hset := settled_run (settled_start sampleRate mic system) (labelled (fun _ => 0) ops)
  have hsize := sized_run (sized_start sampleRate mic system) (labelled (fun _ => 0) ops)
  simp only [List.nil_append, receivedFrom_labelled] at hfollows hset
  exact ⟨_, _, hfollows, hset, hsize, fun _ => nodup_labels _ _, fun _ => zero_notMem_labels _ _⟩

/-- **When the final flush is lossless.** After any calls, the windows of the final flush hold
every buffered sample exactly once, at its aligned place, if and only if what each source has
past the last whole window fits in one window that starts there. -/
theorem flushLossless_labelRun_iff {β : Type v} (sampleRate : ℕ) (mic system : Bool)
    (ops : List (MixerOp β)) :
    (labelRun sampleRate mic system ops).2.FlushLossless ↔
      (labelRun sampleRate mic system ops).2.FlushFits := by
  obtain ⟨R, a, h⟩ := exists_labelled sampleRate mic system ops
  constructor
  · intro hloss
    exact hloss.flushFits h.follows h.settled h.sized h.zero_notMem
  · intro hfits
    exact hfits.flushLossless h.follows h.settled h.sized h.nodup h.zero_notMem

/-- The microphone leads by one window and a half, and half a window is lost. -/
theorem not_flushLossless_of_lead :
    ¬ (labelRun 48000 true true
      [.addSamples .microphone (List.replicate 3600 (0 : Float32))]).2.FlushLossless := by
  intro hloss
  obtain ⟨R, a, h⟩ := exists_labelled 48000 true true
    [.addSamples .microphone (List.replicate 3600 (0 : Float32))]
  have hexp : ((labelRun 48000 true true [.addSamples .microphone
      (List.replicate 3600 (0 : Float32))]).2.source .microphone).expected = true :=
    (sameShape_run _ _).expected .microphone
  rcases hloss.flushFits h.follows h.settled h.sized h.zero_notMem with hnone | ⟨-, hroom⟩
  · exact absurd (hexp.symm.trans (hnone .microphone)) nofun
  · exact absurd (hroom .microphone hexp).1 (by decide +kernel)

end AudioMixerRingBuffer

end MeetilyLocal
