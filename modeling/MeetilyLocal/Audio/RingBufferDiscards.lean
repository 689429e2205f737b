import MeetilyLocal.Audio.RingBufferWaiting

/-!
# What a mixer that keeps up drops

The pipeline calls `extract_window` until it waits, after every chunk (`KeepsUp`). A sample of
an expected source can then be lost in two ways only: a forced gap clears the buffer it sits in,
or it arrives late, for a range that an earlier gap has given up on. Both are for a source that
lies behind the other by more than the lag less one window (`Behind`), because a gap is forced
only then and the other source does not move back (`GapsBehind`).

The safety cap is out of reach as long as a chunk fits beside what a waiting source can hold
(`chunkRoom`): the whole lag when there are two sources, less than one window when there is one.

The headline is `behind_of_discards`, with `run_accounts`: nothing else goes missing.
-/

namespace MeetilyLocal

universe u v

open Timeline

/-! ## One source -/

namespace SourceState

variable {α : Type u}

@[simp] theorem ingest_discardBefore (src : SourceState α) (M : ℕ) (oe os : Bool) (or : ℕ)
    (samples : List α) : (src.ingest M oe os or samples).discardBefore = src.discardBefore := by
  simp only [ingest, absorb, capped, anchored]
  split_ifs <;> rfl

/-- The incoming position of a source that was seen only grows. -/
theorem rawNextPos_le_ingest {src : SourceState α} (hs : src.seen = true) (M : ℕ)
    (oe os : Bool) (or : ℕ) (samples : List α) :
    src.seen = (src.ingest M oe os or samples).seen ∧
      src.rawNextPos ≤ (src.ingest M oe os or samples).rawNextPos := by
  simp only [ingest, absorb, capped, anchored, hs]
  split_ifs <;> simp [hs]

/-- A chunk that is not late is appended whole, and the safety cap drops from the front. -/
theorem ingest_buffer {src : SourceState α} (he : src.expected = true) {M : ℕ} {oe os : Bool}
    {or : ℕ} {samples : List α} (hontime : src.seen = true → src.discardBefore ≤ src.rawNextPos)
    (hlimit : src.buffer.length ≤ M) :
    (src.ingest M oe os or samples).buffer =
      (src.buffer ++ samples).drop (src.buffer.length + samples.length - M) := by
  by_cases hne : samples = []
  · rw [hne, ingest_nil, List.append_nil, List.length_nil, Nat.add_zero,
      Nat.sub_eq_zero_of_le hlimit, List.drop_zero]
  · have hlen : 0 < samples.length := List.length_pos_of_ne_nil hne
    have hstart : (src.anchored oe os or).discardBefore ≤ (src.anchored oe os or).rawNextPos := by
      unfold anchored
      split_ifs with hs
      · exact hontime hs
      · exact le_max_right _ _
    have hbuffer : (src.anchored oe os or).buffer = src.buffer := by
      unfold anchored
      split_ifs <;> rfl
    rw [ingest, if_neg (by simp [he, hne])]
    generalize src.anchored oe os or = anch at *
    rw [absorb, if_neg (by simp only; omega)]
    simp only [Nat.sub_eq_zero_of_le hstart, List.drop_zero]
    rw [if_neg (by omega), capped]
    simp only [hbuffer, List.length_append]
    by_cases hover : M < src.buffer.length + samples.length
    · rw [if_pos hover]
    · rw [if_neg hover, Nat.sub_eq_zero_of_le (not_lt.mp hover), List.drop_zero]

/-- The cap drops nothing of what fits. -/
theorem ingest_buffer_of_fits {src : SourceState α} (he : src.expected = true) {M : ℕ}
    {oe os : Bool} {or : ℕ} {samples : List α}
    (hontime : src.seen = true → src.discardBefore ≤ src.rawNextPos)
    (hfits : src.buffer.length + samples.length ≤ M) :
    (src.ingest M oe os or samples).buffer = src.buffer ++ samples := by
  rw [ingest_buffer he hontime (by omega), Nat.sub_eq_zero_of_le hfits, List.drop_zero]

variable [Zero α]

theorem takeWindow_discardBefore {src : SourceState α} (he : src.expected = true) (g : Bool)
    (wp w : ℕ) : (src.takeWindow g wp w).2.discardBefore =
      if g then max src.discardBefore (wp + w) else src.discardBefore := by
  simp only [takeWindow, realigned, he]
  split_ifs <;> simp_all

/-- A covered window loses nothing: what was buffered is handed out, or stays. -/
theorem Tracks.mem_takeWindow_covered {src : SourceState α} {M : ℕ} {R : List α} {a wp w : ℕ}
    (h : src.Tracks M R a wp) (he : src.expected = true) (hcov : wp + w ≤ src.frontier wp) {x : α}
    (hne : x ≠ 0) (hx : x ∈ src.buffer) :
    x ∈ (src.takeWindow false wp w).1 ∨ x ∈ (src.takeWindow false wp w).2.buffer := by
  obtain ⟨hwindow, -, hahead, -⟩ := h.takeWindow_covered he hcov
  obtain ⟨i, hi⟩ := List.mem_iff_getElem?.mp hx
  have hat : src.sampleAt (src.bufStartPos + i) = x := placed_of_getElem? hi
  have hle := h.ahead (List.ne_nil_of_mem hx)
  rcases Nat.lt_or_ge (src.bufStartPos + i) (wp + w) with hlt | hge
  · left
    rw [hwindow]
    refine List.mem_iff_getElem?.mpr ⟨src.bufStartPos + i - wp, ?_⟩
    rw [getElem?_window_of_lt (by omega), show wp + (src.bufStartPos + i - wp) = _ from
      Nat.add_sub_cancel' (by omega), hat]
  · right
    have hkept := (hahead _ hge).trans hat
    have hmem := (getElem?_of_placed_ne_zero (by rwa [← hkept] at hne)).2
    rw [← sampleAt, hkept] at hmem
    exact List.mem_of_getElem? hmem

end SourceState

namespace AudioMixerRingBuffer

variable {α : Type u}

/-! ## What a run keeps -/

/-- A source lies behind the other by more than the allowed lag less one window. -/
def Behind (rb : AudioMixerRingBuffer α) (d : DeviceType) : Prop :=
  rb.frontierOf d + rb.maxLagSamples < rb.frontierOf d.other + rb.windowSizeSamples

/-- What was given up on for one source lies as far behind the other source. -/
def GapsBehind (rb : AudioMixerRingBuffer α) : Prop :=
  ∀ d, (rb.source d).expected = true → (rb.source d).discardBefore ≠ 0 →
    (rb.source d.other).expected = true ∧ (rb.source d).discardBefore + rb.maxLagSamples <
      rb.frontierOf d.other + rb.windowSizeSamples

/-- A chunk moves no frontier back. -/
theorem frontierOf_le_addSamples (rb : AudioMixerRingBuffer α) {d : DeviceType}
    (he : (rb.source d).expected = true) (d' : DeviceType) (samples : List α) :
    rb.frontierOf d ≤ (rb.addSamples d' samples).frontierOf d := by
  by_cases hd : d = d'
  · subst hd
    rw [frontierOf, frontierOf, source_addSamples_self, SourceState.frontier_eq he,
      SourceState.frontier_eq (by rw [SourceState.ingest_expected, he])]
    rcases hs : (rb.source d).seen with _ | _
    · exact Nat.zero_le _
    · obtain ⟨hseen, hle⟩ := SourceState.rawNextPos_le_ingest hs rb.maxBufferSize
        (rb.source d.other).expected (rb.source d.other).seen (rb.source d.other).rawNextPos samples
      rw [← hseen, hs]
      exact hle
  · rw [frontierOf, frontierOf, source_addSamples_of_ne rb hd, windowPos_addSamples]

theorem gapsBehind_addSamples {rb : AudioMixerRingBuffer α} (h : rb.GapsBehind) (d : DeviceType)
    (samples : List α) : (rb.addSamples d samples).GapsBehind := by
  have hsource : ∀ d', ((rb.addSamples d samples).source d').expected = (rb.source d').expected ∧
      ((rb.addSamples d samples).source d').discardBefore = (rb.source d').discardBefore := by
    intro d'
    by_cases hd : d' = d
    · subst hd
      rw [source_addSamples_self, SourceState.ingest_expected, SourceState.ingest_discardBefore]
      exact ⟨rfl, rfl⟩
    · rw [source_addSamples_of_ne rb hd]
      exact ⟨rfl, rfl⟩
  intro d' he hdiscard
  rw [(hsource d').1] at he
  rw [(hsource d').2] at hdiscard ⊢
  obtain ⟨hother, hlag⟩ := h d' he hdiscard
  have hmono := rb.frontierOf_le_addSamples hother d samples
  rw [(hsource d'.other).1, maxLagSamples_addSamples, windowSizeSamples_addSamples]
  exact ⟨hother, by omega⟩

/-- Only a source with data past the cursor leads. -/
theorem expected_of_lead {rb : AudioMixerRingBuffer α} {d : DeviceType}
    (h : rb.windowPos < rb.frontierOf d) : (rb.source d).expected = true := by
  by_contra he
  rw [frontierOf_of_not_expected (by simpa using he)] at h
  exact absurd h (lt_irrefl _)

variable [Zero α]

theorem gapsBehind_extractWindow {rb rb' : AudioMixerRingBuffer α} {window : MixWindow α}
    (h : rb.GapsBehind) (hex : rb.extractWindow = some (window, rb')) : rb'.GapsBehind := by
  obtain ⟨hwait, -, hsource, -, hw, -, hlag⟩ := extractWindow_eq_some hex
  have hexp := (sameShape_extractWindow hex).expected
  intro d he hdiscard
  rw [hexp] at he
  rw [hsource d, SourceState.takeWindow_discardBefore he] at hdiscard ⊢
  rw [hexp, hw, hlag]
  rcases hcov : rb.covered d with _ | _
  · -- the gap ends one window past the cursor, and the other source leads by the lag
    have hlead := lead_of_not_covered hcov (hwait d)
    have hother : (rb.source d.other).expected = true := expected_of_lead (by omega)
    rw [frontierOf_extractWindow hex hother]
    refine ⟨hother, ?_⟩
    by_cases hold : (rb.source d).discardBefore = 0
    · simp only [Bool.not_false, if_true, hold]
      omega
    · have := (h d he hold).2
      simp only [Bool.not_false, if_true]
      omega
  · simp only [hcov, Bool.not_true, Bool.false_eq_true, if_false] at hdiscard ⊢
    obtain ⟨hother, hle⟩ := h d he hdiscard
    rw [frontierOf_extractWindow hex hother]
    exact ⟨hother, hle⟩

/-- What every run keeps that is needed to say what it drops. -/
structure Paced (rb : AudioMixerRingBuffer α) (R : DeviceType → List α) (a : DeviceType → ℕ) :
    Prop where
  /-- the sources track what was received -/
  follows : rb.Follows R a
  /-- lag and limit fit the window -/
  sized : rb.Sized
  /-- the limit spans the lag -/
  lag_le : rb.maxLagSamples ≤ rb.maxBufferSize
  /-- gaps were forced for a source that lay behind -/
  gaps : rb.GapsBehind

omit [Zero α] in
theorem paced_start (sampleRate : ℕ) (mic system : Bool) (a : DeviceType → ℕ) :
    (start sampleRate mic system : AudioMixerRingBuffer α).Paced (fun _ => []) a where
  follows := follows_start sampleRate mic system a
  sized := sized_start sampleRate mic system
  lag_le := samplesOfMs_mono sampleRate (by norm_num)
  gaps := by rintro (_ | _) - hne <;> exact absurd rfl hne

theorem Paced.exec {rb : AudioMixerRingBuffer α} {R : DeviceType → List α} {a : DeviceType → ℕ}
    {op : MixerOp α} {ops : List (MixerOp α)} (h : rb.Paced R a)
    (ha : rb.AnchoredBy a (op :: ops)) : (rb.exec op).2.Paced (receivedAfter R op) a where
  follows := follows_exec h.follows ha
  sized := h.sized.of_sameShape (rb.sameShape_exec op)
  lag_le := by
    rw [(rb.sameShape_exec op).maxLag, (rb.sameShape_exec op).maxBuffer]
    exact h.lag_le
  gaps := by
    cases op with
    | addSamples d samples => exact gapsBehind_addSamples h.gaps d samples
    | extractWindow =>
      rcases hex : rb.extractWindow with _ | ⟨window, rb'⟩
      · rw [AudioMixerRingBuffer.exec, hex]
        exact h.gaps
      · rw [AudioMixerRingBuffer.exec, hex]
        exact gapsBehind_extractWindow h.gaps hex

/-! ## What one call drops -/

/-- A call drops the sample `x` of a device: it was buffered or in the chunk, and is afterwards
neither buffered nor handed out. -/
def Discards (rb : AudioMixerRingBuffer α) (op : MixerOp α) (d : DeviceType) (x : α) : Prop :=
  (x ∈ (rb.source d).buffer ∨ x ∈ receivedFrom d [op]) ∧
    x ∉ ((rb.exec op).2.source d).buffer ∧ x ∉ stream d (rb.exec op).1.toList

/-- The longest chunk that fits beside what a waiting source can hold. -/
def chunkRoom (rb : AudioMixerRingBuffer α) : ℕ :=
  rb.maxBufferSize -
    if rb.mic.expected && rb.system.expected then rb.maxLagSamples else rb.windowSizeSamples

omit [Zero α] in
theorem SameShape.chunkRoom_eq {rb rb' : AudioMixerRingBuffer α} (h : rb.SameShape rb') :
    rb'.chunkRoom = rb.chunkRoom := by
  have hmic : rb'.mic.expected = rb.mic.expected := h.expected .microphone
  have hsys : rb'.system.expected = rb.system.expected := h.expected .system
  rw [chunkRoom, chunkRoom, hmic, hsys, h.maxBuffer, h.maxLag, h.windowSize]

section Calls

variable {rb : AudioMixerRingBuffer α} {R : DeviceType → List α} {a : DeviceType → ℕ}

omit [Zero α] in
/-- A buffer holds no more than the lead of its source. -/
theorem length_buffer_le (h : rb.Follows R a) {d : DeviceType}
    (he : (rb.source d).expected = true) :
    (rb.source d).buffer.length ≤ rb.frontierOf d - rb.windowPos := by
  by_cases hne : (rb.source d).buffer = []
  · rw [hne]
    exact Nat.zero_le _
  · have hend := end_eq_frontier h he hne
    have hahead := (h d he).ahead hne
    omega

/-- While the cursor waits for the only source, that source does not cover the window. -/
theorem frontierOf_lt_of_waits (hstop : rb.extractWindow = none) {d : DeviceType}
    (he : (rb.source d).expected = true) (hother : (rb.source d.other).expected = false) :
    rb.frontierOf d < rb.windowPos + rb.windowSizeSamples := by
  rcases extractWindow_eq_none_iff.mp hstop with hnone | ⟨d', hwait⟩
  · rw [hnone d] at he
    exact absurd he Bool.false_ne_true
  · simp only [awaits, Bool.and_eq_true, Bool.not_eq_true'] at hwait
    by_cases hd : d' = d
    · subst hd
      by_contra hcov
      rw [(covered_iff he).mpr (not_lt.mp hcov)] at hwait
      exact absurd hwait.1 (by simp)
    · have hd' : d' = d.other := DeviceType.eq_other_of_ne hd
      rw [hd', covered_of_not_expected hother] at hwait
      exact absurd hwait.1 (by simp)

omit [Zero α] in
/-- Beside another source there is room for all but the lag. -/
theorem chunkRoom_of_both {d : DeviceType} (he : (rb.source d).expected = true)
    (hother : (rb.source d.other).expected = true) :
    rb.chunkRoom = rb.maxBufferSize - rb.maxLagSamples := by
  have hboth : (rb.mic.expected && rb.system.expected) = true := by
    cases d with
    | microphone => exact Bool.and_eq_true_iff.mpr ⟨he, hother⟩
    | system => exact Bool.and_eq_true_iff.mpr ⟨hother, he⟩
  rw [chunkRoom, hboth, if_pos rfl]

omit [Zero α] in
/-- Alone it waits for less than a window. -/
theorem chunkRoom_of_alone {d : DeviceType} (hother : (rb.source d.other).expected = false) :
    rb.chunkRoom = rb.maxBufferSize - rb.windowSizeSamples := by
  have hboth : (rb.mic.expected && rb.system.expected) = false := by
    cases d with
    | microphone => exact Bool.and_eq_false_iff.mpr (Or.inr hother)
    | system => exact Bool.and_eq_false_iff.mpr (Or.inl hother)
  rw [chunkRoom, hboth, if_neg Bool.false_ne_true]

/-- What a waiting source holds leaves room for the next chunk. -/
theorem length_buffer_add_le (h : rb.Paced R a) (hstop : rb.extractWindow = none) {d : DeviceType}
    (he : (rb.source d).expected = true) {n : ℕ} (hn : n ≤ rb.chunkRoom) :
    (rb.source d).buffer.length + n ≤ rb.maxBufferSize := by
  have hlen := length_buffer_le h.follows he
  have hlimit := h.sized.limit
  have hlag := h.lag_le
  rcases hother : (rb.source d.other).expected with _ | _
  · have hlt := frontierOf_lt_of_waits hstop he hother
    rw [chunkRoom_of_alone hother] at hn
    omega
  · have hle := frontierOf_le_of_waits h.sized hstop he
    rw [chunkRoom_of_both he hother] at hn
    omega

/-- A chunk that arrives while the cursor waits, and is short enough, is dropped only where it is
late: the source then lies behind. -/
theorem behind_of_discards_addSamples (h : rb.Paced R a) (hstop : rb.extractWindow = none)
    {d d' : DeviceType} (he : (rb.source d).expected = true) {samples : List α}
    (hroom : samples.length ≤ rb.chunkRoom) {x : α}
    (hx : rb.Discards (.addSamples d' samples) d x) : rb.Behind d := by
  obtain ⟨hin, hout, -⟩ := hx
  by_cases hd : d = d'
  · subst hd
    rw [receivedFrom_addSamples_self, receivedFrom, List.append_nil] at hin
    by_cases hontime : (rb.source d).seen = true →
        (rb.source d).discardBefore ≤ (rb.source d).rawNextPos
    · rw [exec, source_addSamples_self, SourceState.ingest_buffer_of_fits he hontime
        (length_buffer_add_le h hstop he hroom), List.mem_append] at hout
      exact absurd hin hout
    · push Not at hontime
      obtain ⟨hs, hlate⟩ := hontime
      have hgap := (h.gaps d he (by omega)).2
      rw [Behind, frontierOf, SourceState.frontier_eq he, if_pos hs]
      omega
  · rw [receivedFrom_addSamples_of_ne (Ne.symm hd), receivedFrom] at hin
    rw [exec, source_addSamples_of_ne rb hd] at hout
    exact absurd (hin.resolve_right List.not_mem_nil) hout

/-- An extraction drops only what a forced gap clears: the source then lies behind. -/
theorem behind_of_discards_extractWindow (h : rb.Paced R a) {d : DeviceType}
    (he : (rb.source d).expected = true) {x : α} (hne : x ≠ 0)
    (hx : rb.Discards .extractWindow d x) : rb.Behind d := by
  obtain ⟨hin, hout, hemit⟩ := hx
  have hbuf := hin.resolve_right List.not_mem_nil
  rcases hex : rb.extractWindow with _ | ⟨window, rb'⟩
  · rw [exec, hex] at hout
    exact absurd hbuf hout
  · obtain ⟨hwait, hwindow, hsource, -⟩ := extractWindow_eq_some hex
    rcases hcov : rb.covered d with _ | _
    · have hlead := lead_of_not_covered hcov (hwait d)
      have hlag : rb.frontierOf d < rb.windowPos + rb.windowSizeSamples := by
        by_contra hge
        rw [(covered_iff he).mpr (not_lt.mp hge)] at hcov
        exact absurd hcov (by simp)
      rw [Behind]
      omega
    · simp only [exec, hex, stream, Option.toList_some, List.flatMap_singleton, hwindow, hsource,
        hcov, Bool.not_true] at hout hemit
      rcases (h.follows d he).mem_takeWindow_covered he ((covered_iff he).mp hcov) hne hbuf with
        hmem | hmem
      · exact absurd hmem hemit
      · exact absurd hmem hout

end Calls

/-! ## Runs that keep up -/

/-- Every chunk finds the cursor waiting, and so does the end of the run: `extract_window` is
called until `None` after each `add_samples`. -/
def KeepsUp (rb : AudioMixerRingBuffer α) : List (MixerOp α) → Prop
  | [] => rb.extractWindow = none
  | .addSamples d samples :: ops =>
    rb.extractWindow = none ∧ (rb.addSamples d samples).KeepsUp ops
  | .extractWindow :: ops => (rb.exec .extractWindow).2.KeepsUp ops

section Runs

variable {rb : AudioMixerRingBuffer α}

theorem keepsUp_append {pre post : List (MixerOp α)} (h : rb.KeepsUp (pre ++ post)) :
    (rb.run pre).2.KeepsUp post := by
  induction pre generalizing rb with
  | nil => exact h
  | cons op pre ih =>
    cases op with
    | addSamples d samples => exact ih h.2
    | extractWindow => exact ih h

/-- A run that keeps up ends where the cursor waits. -/
theorem KeepsUp.waits {ops : List (MixerOp α)} (h : rb.KeepsUp ops) :
    (rb.run ops).2.extractWindow = none := by
  rw [← List.append_nil ops] at h
  exact keepsUp_append h

theorem Paced.run {R : DeviceType → List α} {a : DeviceType → ℕ} {pre post : List (MixerOp α)}
    (h : rb.Paced R a) (ha : rb.AnchoredBy a (pre ++ post)) :
    (rb.run pre).2.Paced (fun d => R d ++ receivedFrom d pre) a := by
  induction pre generalizing rb R with
  | nil => simpa [AudioMixerRingBuffer.run, receivedFrom] using h
  | cons op pre ih =>
    have hrest := ih (h.exec ha) (anchoredBy_exec ha)
    simp only [receivedAfter_append] at hrest
    exact hrest

/-- A run that keeps up with short chunks drops samples of a source only while it lies behind. -/
theorem behind_of_discards {R : DeviceType → List α} {a : DeviceType → ℕ} (h : rb.Paced R a)
    {pre post : List (MixerOp α)} {op : MixerOp α} (ha : rb.AnchoredBy a (pre ++ op :: post))
    (hkeep : rb.KeepsUp (pre ++ op :: post))
    (hroom : ∀ d samples, op = .addSamples d samples → samples.length ≤ rb.chunkRoom)
    {d : DeviceType} (he : (rb.source d).expected = true) {x : α} (hne : x ≠ 0)
    (hx : (rb.run pre).2.Discards op d x) : (rb.run pre).2.Behind d := by
  have hpaced := h.run ha
  have hkeep' := keepsUp_append hkeep
  have hshape := rb.sameShape_run pre
  have he' := (hshape.expected d).trans he
  cases op with
  | addSamples d' samples =>
    refine behind_of_discards_addSamples hpaced hkeep'.1 he' ?_ hx
    rw [hshape.chunkRoom_eq]
    exact hroom d' samples rfl
  | extractWindow => exact behind_of_discards_extractWindow hpaced he' hne hx

omit [Zero α] in
theorem receivedFrom_cons (d : DeviceType) (op : MixerOp α) (ops : List (MixerOp α)) :
    receivedFrom d (op :: ops) = receivedFrom d [op] ++ receivedFrom d ops := by
  cases op with
  | addSamples d' samples =>
    by_cases hd : d' = d
    · subst hd
      simp [receivedFrom]
    · simp [receivedFrom, hd]
  | extractWindow => rfl

omit [Zero α] in
theorem stream_append (d : DeviceType) (ws ws' : List (MixWindow α)) :
    stream d (ws ++ ws') = stream d ws ++ stream d ws' :=
  List.flatMap_append

/-- Every sample is handed out, still buffered, or dropped by one of the calls. -/
theorem run_accounts {ops : List (MixerOp α)} {d : DeviceType} {x : α}
    (hx : x ∈ (rb.source d).buffer ∨ x ∈ receivedFrom d ops) :
    x ∈ stream d (rb.run ops).1 ∨ x ∈ ((rb.run ops).2.source d).buffer ∨
      ∃ pre op post, ops = pre ++ op :: post ∧ (rb.run pre).2.Discards op d x := by
  induction ops generalizing rb with
  | nil => exact Or.inr (Or.inl (hx.resolve_right List.not_mem_nil))
  | cons op ops ih =>
    rw [receivedFrom_cons, List.mem_append, ← or_assoc] at hx
    rw [AudioMixerRingBuffer.run, stream_append, List.mem_append]
    -- past this call, the accounts of the rest of the run hold
    have hlater : (x ∈ ((rb.exec op).2.source d).buffer ∨ x ∈ receivedFrom d ops) →
        x ∈ stream d ((rb.exec op).2.run ops).1 ∨
          x ∈ (((rb.exec op).2.run ops).2.source d).buffer ∨
          ∃ pre op' post, op :: ops = pre ++ op' :: post ∧
            (rb.run pre).2.Discards op' d x := by
      intro hnext
      rcases ih hnext with hemit | hbuf | ⟨pre, op', post, hops, hdrop⟩
      · exact Or.inl hemit
      · exact Or.inr (Or.inl hbuf)
      · exact Or.inr (Or.inr ⟨op :: pre, op', post, by rw [hops, List.cons_append], hdrop⟩)
    rcases hx with hnow | hnext
    · by_cases hdrop : rb.Discards op d x
      · exact Or.inr (Or.inr ⟨[], op, ops, rfl, hdrop⟩)
      · rw [Discards, not_and, not_and_or, not_not, not_not] at hdrop
        rcases hdrop hnow with hbuf | hemit
        · exact (hlater (Or.inl hbuf)).imp_left Or.inr
        · exact Or.inl (Or.inl hemit)
    · exact (hlater (Or.inr hnext)).imp_left Or.inr

end Runs

end AudioMixerRingBuffer

end MeetilyLocal
