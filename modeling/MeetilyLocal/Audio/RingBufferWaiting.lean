import MeetilyLocal.Audio.RingBufferFlush

/-!
# The cursor waits a bounded time

A window is extracted only when every expected source covers it, or when one source leads the
cursor by more than the allowed lag. Either way some expected source has data past the cursor,
and the cursor moves by one window of that: what the sources have past the cursor (`lead`) is
the measure of the drain loop. When the loop stops, some source is waited for, so neither leads
by more than the lag.

The loop needs windows that are not empty, that is a sample rate of 20 Hz at least
(`samplesOfMs_pos`). The headline is `boundedWaiting_run`.
-/

namespace MeetilyLocal

universe u

namespace AudioMixerRingBuffer

variable {α : Type u} {rb : AudioMixerRingBuffer α}

/-! ## The plan -/

/-- The end of a window lies within the allowed lag of the cursor. -/
theorem Sized.window_le_lag (h : rb.Sized) : rb.windowSizeSamples ≤ rb.maxLagSamples := by
  have := h.lag
  omega

/-- A source that is not expected does not lead. -/
theorem frontierOf_of_not_expected {d : DeviceType} (he : (rb.source d).expected = false) :
    rb.frontierOf d = rb.windowPos := by
  simp [frontierOf, SourceState.frontier, he]

/-- Inversion for `planWindow`: the gaps are the sources that do not cover the window, and none
of them is awaited. -/
theorem planWindow_eq_some {micGap sysGap : Bool} (h : rb.planWindow = some (micGap, sysGap)) :
    micGap = !rb.covered .microphone ∧ sysGap = !rb.covered .system ∧
      ∀ d, rb.awaits d = false := by
  rw [planWindow_eq] at h
  split_ifs at h with hplan
  · simp only [Bool.or_eq_true, not_or, Bool.not_eq_true] at hplan
    obtain ⟨⟨-, hmic⟩, hsys⟩ := hplan
    simp only [Option.some.injEq, Prod.mk.injEq] at h
    refine ⟨h.1.symm, h.2.symm, ?_⟩
    rintro (_ | _)
    · exact hmic
    · exact hsys

/-- A source that does not cover the window and is not awaited is behind a leading one. -/
theorem lead_of_not_covered {d : DeviceType} (hcov : rb.covered d = false)
    (hwait : rb.awaits d = false) :
    rb.windowPos + rb.maxLagSamples < rb.frontierOf d.other := by
  simp only [awaits, hcov, Bool.not_false, Bool.true_and, decide_eq_false_iff_not, not_le] at hwait
  rw [frontierOf]
  omega

/-- A source that leads by more than the lag covers the window. -/
theorem covered_of_lead (h : rb.Sized) {d : DeviceType}
    (hlead : rb.windowPos + rb.maxLagSamples < rb.frontierOf d) : rb.covered d = true := by
  rcases he : (rb.source d).expected with _ | _
  · exact covered_of_not_expected he
  · have := h.window_le_lag
    exact (covered_iff he).mpr (by omega)

/-- A gap is forced for one source only, and only when the other leads by more than the lag. -/
theorem planWindow_gap (h : rb.Sized) {micGap sysGap : Bool}
    (hplan : rb.planWindow = some (micGap, sysGap)) :
    ¬ (micGap = true ∧ sysGap = true) ∧
      (micGap = true → rb.windowPos + rb.maxLagSamples < rb.frontierOf .system) ∧
      (sysGap = true → rb.windowPos + rb.maxLagSamples < rb.frontierOf .microphone) := by
  obtain ⟨rfl, rfl, hwait⟩ := planWindow_eq_some hplan
  simp only [Bool.not_eq_true']
  have hmic := fun hcov => lead_of_not_covered hcov (hwait .microphone)
  have hsys := fun hcov => lead_of_not_covered hcov (hwait .system)
  refine ⟨fun ⟨hm, hs⟩ => ?_, hmic, hsys⟩
  have hcov : rb.covered .system = true := covered_of_lead h (hmic hm)
  rw [hcov] at hs
  exact absurd hs nofun

variable [Zero α]

/-- While the cursor waits, no expected source leads by more than the lag. -/
theorem frontierOf_le_of_waits (h : rb.Sized) (hstop : rb.extractWindow = none) {d : DeviceType}
    (he : (rb.source d).expected = true) :
    rb.frontierOf d ≤ rb.windowPos + rb.maxLagSamples := by
  rcases extractWindow_eq_none_iff.mp hstop with hnone | ⟨d', hwait⟩
  · rw [hnone d] at he
    exact absurd he Bool.false_ne_true
  · simp only [awaits, Bool.and_eq_true, Bool.not_eq_true', decide_eq_true_eq] at hwait
    obtain ⟨hcov, hlag⟩ := hwait
    by_contra hlead
    by_cases hd : d = d'
    · -- the awaited source does not even cover one window
      rw [hd] at hlead
      rw [covered_of_lead h (not_le.mp hlead)] at hcov
      exact absurd hcov (by simp)
    · have hother : d = d'.other := DeviceType.eq_other_of_ne hd
      rw [hother, frontierOf] at hlead
      omega

/-! ## The drain loop ends -/

omit [Zero α] in
/-- What the sources have past the cursor. -/
def lead (rb : AudioMixerRingBuffer α) : ℕ :=
  (rb.frontierOf .microphone - rb.windowPos) + (rb.frontierOf .system - rb.windowPos)

omit [Zero α] in
theorem lead_eq (rb : AudioMixerRingBuffer α) (d : DeviceType) :
    rb.lead = (rb.frontierOf d - rb.windowPos) + (rb.frontierOf d.other - rb.windowPos) := by
  cases d with
  | microphone => rfl
  | system => exact Nat.add_comm _ _

/-- Extraction moves the cursor towards every frontier. -/
theorem frontierOf_sub_le {rb' : AudioMixerRingBuffer α} {window : MixWindow α}
    (hex : rb.extractWindow = some (window, rb')) (d : DeviceType) :
    rb'.frontierOf d - rb'.windowPos ≤ rb.frontierOf d - rb.windowPos := by
  obtain ⟨-, -, hsource, hcursor, -⟩ := extractWindow_eq_some hex
  rcases he : (rb.source d).expected with _ | _
  · have he' : (rb'.source d).expected = false := by
      rw [hsource, SourceState.takeWindow_expected, he]
    rw [frontierOf_of_not_expected he']
    omega
  · rw [frontierOf_extractWindow hex he, hcursor]
    omega

/-- Some expected source covers every window that is extracted. -/
theorem exists_covers (h : rb.Sized) (hexp : ∃ d, (rb.source d).expected = true)
    {rb' : AudioMixerRingBuffer α} {window : MixWindow α}
    (hex : rb.extractWindow = some (window, rb')) :
    ∃ d, (rb.source d).expected = true ∧
      rb.windowPos + rb.windowSizeSamples ≤ rb.frontierOf d := by
  rcases extractWindow_why hex with hall | ⟨d, he, hlead⟩
  · obtain ⟨d, he⟩ := hexp
    exact ⟨d, he, hall d he⟩
  · have := h.window_le_lag
    exact ⟨d, he, by omega⟩

/-- **The measure of the drain loop** decreases with every window. -/
theorem lead_extractWindow_lt (h : rb.Sized) (hw : 0 < rb.windowSizeSamples)
    (hexp : ∃ d, (rb.source d).expected = true) {rb' : AudioMixerRingBuffer α}
    {window : MixWindow α} (hex : rb.extractWindow = some (window, rb')) :
    rb'.lead < rb.lead := by
  obtain ⟨d, he, hcover⟩ := exists_covers h hexp hex
  obtain ⟨-, -, -, hcursor, -⟩ := extractWindow_eq_some hex
  have hself : rb'.frontierOf d - rb'.windowPos < rb.frontierOf d - rb.windowPos := by
    rw [frontierOf_extractWindow hex he, hcursor]
    omega
  have hother := frontierOf_sub_le hex d.other
  rw [lead_eq rb d, lead_eq rb' d]
  omega

omit [Zero α] in
theorem Sized.of_sameShape {rb' : AudioMixerRingBuffer α} (h : rb.Sized)
    (hshape : rb.SameShape rb') : rb'.Sized :=
  ⟨by rw [hshape.windowSize, hshape.maxLag]; exact h.lag,
    by rw [hshape.windowSize, hshape.maxBuffer]; exact h.limit⟩

/-- Fuel for every sample of the lead is enough. -/
theorem exists_drainWindows (h : rb.Sized) (hw : 0 < rb.windowSizeSamples)
    (hexp : ∃ d, (rb.source d).expected = true) {fuel : ℕ} (hfuel : rb.lead < fuel) :
    ∃ windows rb', drainWindows fuel rb = some (windows, rb') := by
  induction fuel generalizing rb with
  | zero => exact absurd hfuel (Nat.not_lt_zero _)
  | succ fuel ih =>
    rw [drainWindows]
    rcases hex : rb.extractWindow with _ | ⟨window, rb₁⟩
    · exact ⟨[], rb, rfl⟩
    · have hshape := sameShape_extractWindow hex
      have hlt := lead_extractWindow_lt h hw hexp hex
      have hexp₁ : ∃ d, (rb₁.source d).expected = true := by
        obtain ⟨d, he⟩ := hexp
        exact ⟨d, (hshape.expected d).trans he⟩
      obtain ⟨windows, rb', hrest⟩ := ih (h.of_sameShape hshape)
        (by rwa [hshape.windowSize]) hexp₁ (by omega)
      exact ⟨window :: windows, rb', by simp only [hrest, Option.map_some]⟩

/-- A drain ends where the cursor waits. -/
theorem drainWindows_stops {fuel : ℕ} {windows : List (MixWindow α)}
    {rb' : AudioMixerRingBuffer α} (hrun : drainWindows fuel rb = some (windows, rb')) :
    rb'.extractWindow = none :=
  drainWindows_induction (motive := fun _ _ => rb'.extractWindow = none) id (fun _ ih => ih) hrun

/-! ## Every reachable state -/

/-- **Bounded waiting.** The drain loop ends, with no expected source more than the lag past the
cursor; and a gap is forced for one source only, when the other leads by more than the lag. -/
structure BoundedWaiting (rb : AudioMixerRingBuffer α) : Prop where
  /-- `extract_window` reaches `None`, and then the lag is bounded -/
  drains : ∃ fuel windows rb', drainWindows fuel rb = some (windows, rb') ∧
    rb'.extractWindow = none ∧ ∀ d, (rb'.source d).expected = true →
      rb'.frontierOf d ≤ rb'.windowPos + rb'.maxLagSamples
  /-- never a gap for both sources -/
  one_gap : rb.planWindow ≠ some (true, true)
  /-- a gap of the microphone means that the system leads -/
  mic_gap : ∀ sysGap, rb.planWindow = some (true, sysGap) →
    rb.windowPos + rb.maxLagSamples < rb.frontierOf .system
  /-- a gap of the system means that the microphone leads -/
  sys_gap : ∀ micGap, rb.planWindow = some (micGap, true) →
    rb.windowPos + rb.maxLagSamples < rb.frontierOf .microphone

theorem boundedWaiting_of_sized (h : rb.Sized) (hw : 0 < rb.windowSizeSamples)
    (hexp : ∃ d, (rb.source d).expected = true) : rb.BoundedWaiting where
  drains := by
    obtain ⟨windows, rb', hrun⟩ := exists_drainWindows h hw hexp (Nat.lt_succ_self _)
    obtain ⟨-, hshape, -⟩ := drainWindows_end hrun
    have hstop := drainWindows_stops hrun
    exact ⟨_, windows, rb', hrun, hstop, fun d he =>
      frontierOf_le_of_waits (h.of_sameShape hshape) hstop he⟩
  one_gap := fun hplan => (planWindow_gap h hplan).1 ⟨rfl, rfl⟩
  mic_gap := fun _ hplan => (planWindow_gap h hplan).2.1 rfl
  sys_gap := fun _ hplan => (planWindow_gap h hplan).2.2 rfl

/-- From 20 Hz on, a window of 50 ms holds a sample. -/
theorem samplesOfMs_pos {sampleRate : ℕ} (h : 20 ≤ sampleRate) : 0 < samplesOfMs sampleRate 50 :=
  lt_of_lt_of_le (by decide +kernel : 0 < samplesOfMs 20 50) (samplesOfMs_mono_rate h 50)

omit [Zero α] in
theorem expected_start (sampleRate : ℕ) {mic system : Bool} (h : (mic || system) = true) :
    ∃ d, ((start sampleRate mic system : AudioMixerRingBuffer α).source d).expected = true := by
  rcases Bool.or_eq_true _ _ ▸ h with hm | hs
  · exact ⟨.microphone, hm⟩
  · exact ⟨.system, hs⟩

/-- Whatever the calls on a ring buffer with a source, from 20 Hz on. -/
theorem boundedWaiting_run {sampleRate : ℕ} (hrate : 20 ≤ sampleRate) {mic system : Bool}
    (hsource : (mic || system) = true) (ops : List (MixerOp α)) :
    ((start sampleRate mic system).run ops).2.BoundedWaiting := by
  have hshape := (start sampleRate mic system : AudioMixerRingBuffer α).sameShape_run ops
  refine boundedWaiting_of_sized (sized_run (sized_start sampleRate mic system) ops) ?_ ?_
  · rw [hshape.windowSize]
    exact samplesOfMs_pos hrate
  · obtain ⟨d, he⟩ := expected_start (α := α) sampleRate hsource
    exact ⟨d, (hshape.expected d).trans he⟩

theorem boundedWaiting_run_lead :
    ((start 48000 true true).run
      [.addSamples .microphone (List.replicate 3600 (0 : Float32))]).2.BoundedWaiting :=
  boundedWaiting_run (by decide) rfl _

/-- Below 20 Hz a window is empty, and the drain loop of a fresh buffer never ends. -/
theorem not_boundedWaiting_of_rate :
    ¬ (start 19 true true : AudioMixerRingBuffer Float32).BoundedWaiting := by
  rintro ⟨⟨fuel, windows, rb', hrun, -⟩, -⟩
  have hset := settled_start (α := Float32) 19 true true
  have hempty : samplesOfMs 19 50 = 0 := by decide +kernel
  rw [drainWindows_of_size_zero hset hempty ⟨.microphone, rfl⟩] at hrun
  exact absurd hrun nofun

end AudioMixerRingBuffer

end MeetilyLocal
