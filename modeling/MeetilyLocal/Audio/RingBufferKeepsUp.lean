import MeetilyLocal.Audio.RingBufferDiscards

/-!
# What a mixer that keeps up hands out

With a single source the cursor never waits for anything else: the windows are the stream it
delivered, cut into pieces of one window, and what is left when the calls stop fits in the one
window of the final flush (`SingleStream`). So the whole output is the input and the zeros that
fill up its last window, however the input was cut into chunks.

The headline is `keepsUp_run`, for one source and for two. Every sequence of chunks has a run that
keeps up (`exists_keepsUp`).
-/

namespace MeetilyLocal

universe u v

open Timeline

namespace AudioMixerRingBuffer

variable {α : Type u} [Zero α]

/-! ## A single source -/

/-- The only source of a recording, against what it delivered and what was handed out. -/
structure SingleStream (rb : AudioMixerRingBuffer α) (d : DeviceType) (R out : List α) : Prop where
  /-- the source is expected -/
  expected : (rb.source d).expected = true
  /-- the other is not -/
  alone : (rb.source d.other).expected = false
  /-- the source tracks what was received, from 0 on -/
  tracks : (rb.source d).Tracks rb.maxBufferSize R 0 rb.windowPos
  /-- no gap was forced -/
  no_gap : (rb.source d).discardBefore = 0
  /-- what is past the cursor is buffered -/
  buffer : (rb.source d).buffer = R.drop rb.windowPos
  /-- what is before the cursor was handed out -/
  handed : out = R.take rb.windowPos

section Single

variable {rb : AudioMixerRingBuffer α} {d : DeviceType} {R out : List α}

omit [Zero α] in
/-- The frontier is what was received. -/
theorem SingleStream.frontier (h : rb.SingleStream d R out) : rb.frontierOf d = R.length := by
  rw [frontierOf, SourceState.frontier_eq h.expected]
  rcases hs : (rb.source d).seen with _ | _
  · simp [h.tracks.unseen hs]
  · simp [h.tracks.raw_eq hs]

omit [Zero α] in
theorem SingleStream.cursor_le (h : rb.SingleStream d R out) : rb.windowPos ≤ R.length := by
  have hreached := h.tracks.reached
  rwa [h.no_gap, Nat.max_zero, ← SourceState.frontier_eq h.expected, ← frontierOf,
    h.frontier] at hreached

omit [Zero α] in
/-- What is buffered starts at the cursor. -/
theorem SingleStream.start_eq (h : rb.SingleStream d R out) (hne : (rb.source d).buffer ≠ []) :
    (rb.source d).bufStartPos = rb.windowPos := by
  have hends := h.tracks.ends hne
  have hraw := h.tracks.raw_eq (h.tracks.seen_of_buffer hne)
  have hle := h.cursor_le
  rw [h.buffer, List.length_drop] at hends
  omega

omit [Zero α] in
theorem singleStream_start (sampleRate : ℕ) {mic system : Bool} {d : DeviceType}
    (he : ((start sampleRate mic system : AudioMixerRingBuffer α).source d).expected = true)
    (ho : ((start sampleRate mic system : AudioMixerRingBuffer α).source d.other).expected =
      false) :
    (start sampleRate mic system : AudioMixerRingBuffer α).SingleStream d [] [] where
  expected := he
  alone := ho
  tracks := follows_start sampleRate mic system (fun _ => 0) d he
  no_gap := by cases d <;> rfl
  buffer := by cases d <;> rfl
  handed := rfl

omit [Zero α] in
/-- A chunk that fits continues the stream. -/
theorem SingleStream.addSamples (h : rb.SingleStream d R out) {samples : List α}
    (hroom : (rb.source d).buffer.length + samples.length ≤ rb.maxBufferSize) :
    (rb.addSamples d samples).SingleStream d (R ++ samples) out := by
  have hle := h.cursor_le
  have hother : (rb.addSamples d samples).source d.other = rb.source d.other :=
    source_addSamples_of_ne rb d.other_ne samples
  refine ⟨?_, by rw [hother]; exact h.alone, ?_, ?_, ?_, ?_⟩
  · rw [source_addSamples_self, SourceState.ingest_expected, h.expected]
  · rw [source_addSamples_self, maxBufferSize_addSamples, windowPos_addSamples]
    exact h.tracks.ingest h.expected fun _ _ => by simp [SourceState.anchor, h.alone, h.no_gap]
  · rw [source_addSamples_self, SourceState.ingest_discardBefore, h.no_gap]
  · rw [source_addSamples_self, windowPos_addSamples, SourceState.ingest_buffer_of_fits h.expected
      (fun _ => by rw [h.no_gap]; exact Nat.zero_le _) hroom, h.buffer,
      List.drop_append_of_le_length hle]
  · rw [windowPos_addSamples, h.handed, List.take_append_of_le_length hle]

omit [Zero α] in
/-- A chunk of the device the recording does not have changes nothing. -/
theorem SingleStream.addSamples_other (h : rb.SingleStream d R out) (samples : List α) :
    (rb.addSamples d.other samples).SingleStream d R out := by
  have hself : (rb.addSamples d.other samples).source d = rb.source d :=
    source_addSamples_of_ne rb d.other_ne.symm samples
  have hother : (rb.addSamples d.other samples).source d.other = rb.source d.other := by
    rw [source_addSamples_self, SourceState.ingest_of_not_expected h.alone]
  refine ⟨by rw [hself, h.expected], by rw [hother, h.alone], ?_, by rw [hself, h.no_gap], ?_, ?_⟩
  · rw [hself, maxBufferSize_addSamples, windowPos_addSamples]
    exact h.tracks
  · rw [hself, windowPos_addSamples, h.buffer]
  · rw [windowPos_addSamples, h.handed]

/-- A window is the next piece of the stream. -/
theorem SingleStream.extractWindow (h : rb.SingleStream d R out) (hw : 0 < rb.windowSizeSamples)
    (hlimit : rb.windowSizeSamples ≤ rb.maxBufferSize) {rb' : AudioMixerRingBuffer α}
    {window : MixWindow α} (hex : rb.extractWindow = some (window, rb')) :
    rb'.SingleStream d R (out ++ window.source d) := by
  obtain ⟨hwait, hwindow, hsource, hcursor, -, hmax, -⟩ := extractWindow_eq_some hex
  have hshape := sameShape_extractWindow hex
  have hcov : rb.covered d = true := by
    by_contra hcov
    have hlead := lead_of_not_covered (by simpa using hcov) (hwait d)
    rw [frontierOf_of_not_expected h.alone] at hlead
    omega
  have hreach := (covered_iff h.expected).mp hcov
  obtain ⟨hpiece, htracks, -, hstart⟩ := h.tracks.takeWindow_covered h.expected hreach
  replace hwindow := hwindow d
  replace hsource := hsource d
  simp only [hcov, Bool.not_true] at hwindow hsource
  rw [h.frontier] at hreach
  have hne : (rb.source d).buffer ≠ [] := by
    rw [h.buffer, ← List.length_pos_iff_ne_nil, List.length_drop]
    omega
  have hs := h.tracks.seen_of_buffer hne
  refine ⟨(hshape.expected d).trans h.expected, (hshape.expected _).trans h.alone, ?_, ?_, ?_, ?_⟩
  · rw [hsource, hcursor, hmax]
    exact htracks
  · rw [hsource, SourceState.takeWindow_discardBefore h.expected, h.no_gap]
    rfl
  · -- what is left is a tail of the stream that starts at the new cursor
    rw [hsource, hcursor]
    have htail := htracks.tail
    have hraw := h.tracks.raw_eq hs
    by_cases hnil : ((rb.source d).takeWindow false rb.windowPos rb.windowSizeSamples).2.buffer = []
    · have hdone : ¬ max (rb.windowPos + rb.windowSizeSamples) 0 < (rb.source d).rawNextPos := by
        intro hlt
        exact htracks.pending (by omega) (by rwa [SourceState.takeWindow_seen])
          (by rwa [SourceState.takeWindow_rawNextPos]) hnil
      rw [hnil, eq_comm, List.drop_eq_nil_iff]
      omega
    · have hends := htracks.ends hnil
      rw [(hstart hnil).2, h.start_eq hne, SourceState.takeWindow_rawNextPos] at hends
      rw [List.suffix_iff_eq_drop] at htail
      rw [htail]
      congr 1
      omega
  · rw [hwindow, hpiece, hcursor, SourceState.sampleAt, h.start_eq hne, window_placed _ le_rfl,
      h.buffer, h.handed, List.take_add]
    congr 1
    rw [Nat.sub_self, List.replicate_zero, List.nil_append, Nat.sub_zero,
      List.take_append_of_le_length (by rw [List.length_drop]; omega)]

/-- A run that keeps up with short chunks hands the stream out piece by piece. -/
theorem SingleStream.run (h : rb.SingleStream d R out) (hw : 0 < rb.windowSizeSamples)
    (hlimit : rb.windowSizeSamples ≤ rb.maxBufferSize) {ops : List (MixerOp α)}
    (hkeep : rb.KeepsUp ops)
    (hroom : ∀ d' samples, .addSamples d' samples ∈ ops → samples.length ≤ rb.chunkRoom) :
    (rb.run ops).2.SingleStream d (R ++ receivedFrom d ops) (out ++ stream d (rb.run ops).1) := by
  induction ops generalizing rb R out with
  | nil => simpa [AudioMixerRingBuffer.run, receivedFrom, stream] using h
  | cons op ops ih =>
    have hshape := rb.sameShape_exec op
    have hnext := fun {R' out'} (h' : (rb.exec op).2.SingleStream d R' out') hkeep' =>
      ih h' (by rwa [hshape.windowSize]) (by rwa [hshape.windowSize, hshape.maxBuffer]) hkeep'
        fun d' samples hmem => by
          rw [hshape.chunkRoom_eq]
          exact hroom d' samples (List.mem_cons_of_mem _ hmem)
    cases op with
    | addSamples d' samples =>
      by_cases hd : d' = d
      · subst hd
        have hlt := frontierOf_lt_of_waits hkeep.1 h.expected h.alone
        have hlen := hroom d' samples List.mem_cons_self
        rw [chunkRoom_of_alone h.alone] at hlen
        have hfits : (rb.source d').buffer.length + samples.length ≤ rb.maxBufferSize := by
          rw [h.buffer, List.length_drop, ← h.frontier]
          omega
        have hrest := hnext (h.addSamples hfits) hkeep.2
        rwa [List.append_assoc, ← receivedFrom_addSamples_self] at hrest
      · have hd' : d' = d.other := DeviceType.eq_other_of_ne hd
        have hrest := hnext (by rw [hd']; exact h.addSamples_other samples) hkeep.2
        rwa [← receivedFrom_addSamples_of_ne hd samples] at hrest
    | extractWindow =>
      rcases hex : rb.extractWindow with _ | ⟨window, rb'⟩
      · have hexec : rb.exec .extractWindow = (none, rb) := by rw [exec, hex]
        have hrest := hnext (by rw [hexec]; exact h) hkeep
        rw [hexec] at hrest
        rw [AudioMixerRingBuffer.run, hexec]
        exact hrest
      · have hexec : rb.exec .extractWindow = (some window, rb') := by rw [exec, hex]
        have hrest := hnext (by rw [hexec]; exact h.extractWindow hw hlimit hex) hkeep
        rw [hexec, List.append_assoc] at hrest
        rw [AudioMixerRingBuffer.run, hexec, stream_append]
        simpa [stream, receivedFrom] using hrest

/-- The zeros that fill up the last window of `n` samples. -/
def padding (w n : ℕ) : ℕ := (w - n % w) % w

theorem padding_lt {w : ℕ} (hw : 0 < w) (n : ℕ) : padding w n < w := Nat.mod_lt _ hw

theorem padding_of_lt {w n k : ℕ} (hdvd : w ∣ k) (hle : k ≤ n) (hlt : n < k + w) :
    padding w n = if n = k then 0 else w - (n - k) := by
  obtain ⟨m, rfl⟩ := hdvd
  have hmod : n % w = n - w * m := by
    conv_lhs => rw [← Nat.add_sub_cancel' hle, Nat.mul_add_mod, Nat.mod_eq_of_lt (by omega)]
  rw [padding, hmod]
  split_ifs with heq
  · rw [heq, Nat.sub_self, Nat.sub_zero, Nat.mod_self]
  · exact Nat.mod_eq_of_lt (by omega)

/-- Where the cursor waits, the final flush hands out the rest of the stream and fills up its
last window. -/
theorem SingleStream.flushFinal (h : rb.SingleStream d R out)
    (hstop : rb.extractWindow = none) (hsilent : (rb.source d.other).buffer = [])
    (hgrid : rb.windowSizeSamples ∣ rb.windowPos) :
    ∃ windows rb', AudioMixerRingBuffer.flushFinal 1 rb = some (windows, rb') ∧
      out ++ stream d windows =
        R ++ List.replicate (padding rb.windowSizeSamples R.length) 0 := by
  have hlt := frontierOf_lt_of_waits hstop h.expected h.alone
  have hle := h.cursor_le
  rw [h.frontier] at hlt
  have hdrain : drainWindows 1 rb = some ([], rb) := by rw [drainWindows, hstop]
  obtain ⟨windows, rb', hflush⟩ := exists_flushFinal hdrain
  refine ⟨windows, rb', hflush, ?_⟩
  obtain ⟨drained, rb₁, hdrain', hwindows⟩ := flushFinal_eq_some hflush
  obtain ⟨rfl, rfl⟩ : [] = drained ∧ rb = rb₁ := by simpa [hdrain] using hdrain'
  rw [padding_of_lt hgrid hle hlt]
  rcases hwindows with ⟨hempty, rfl⟩ | ⟨⟨d', hne⟩, rfl⟩
  · have hdone := h.buffer.symm.trans (hempty d)
    have hend := List.drop_eq_nil_iff.mp hdone
    rw [if_pos (le_antisymm hend hle), h.handed, List.take_of_length_le hend]
    rfl
  · obtain rfl : d' = d := by
      by_contra hd
      have hd' : d' = d.other := DeviceType.eq_other_of_ne hd
      exact hne (hd' ▸ hsilent)
    rw [h.buffer, ne_eq, List.drop_eq_nil_iff, not_le] at hne
    rw [if_neg (by omega), List.nil_append, stream, List.flatMap_singleton, source_remainder,
      SourceState.resize, h.buffer, List.take_of_length_le (by rw [List.length_drop]; omega),
      List.length_drop, h.handed, ← List.append_assoc, List.take_append_drop]

end Single

/-! ## Every sequence of chunks has a run that keeps up -/

/-- The chunks of a run, in arrival order. -/
def chunksOf : List (MixerOp α) → List (DeviceType × List α)
  | [] => []
  | .addSamples d samples :: ops => (d, samples) :: chunksOf ops
  | .extractWindow :: ops => chunksOf ops

omit [Zero α] in
theorem chunksOf_drain (n : ℕ) (ops : List (MixerOp α)) :
    chunksOf (List.replicate n .extractWindow ++ ops) = chunksOf ops := by
  induction n with
  | zero => rfl
  | succ n ih => exact ih

section Exists

variable {rb : AudioMixerRingBuffer α}

/-- Extracting as long as the drain loop does reaches the state it reaches. -/
theorem keepsUp_drain {fuel : ℕ} {windows : List (MixWindow α)} {rb' : AudioMixerRingBuffer α}
    (hrun : drainWindows fuel rb = some (windows, rb')) {ops : List (MixerOp α)}
    (h : rb'.KeepsUp ops) :
    rb.KeepsUp (List.replicate windows.length .extractWindow ++ ops) := by
  refine drainWindows_induction (motive := fun rb windows =>
    rb.KeepsUp (List.replicate windows.length .extractWindow ++ ops)) (fun _ => h) ?_ hrun
  intro rb rb₁ window windows hex ih
  show (rb.exec .extractWindow).2.KeepsUp _
  rw [exec, hex]
  exact ih

theorem exists_keepsUp_of_waits (h : rb.Sized) (hw : 0 < rb.windowSizeSamples)
    (hexp : ∃ d, (rb.source d).expected = true) (hstop : rb.extractWindow = none)
    (chunks : List (DeviceType × List α)) : ∃ ops, rb.KeepsUp ops ∧ chunksOf ops = chunks := by
  induction chunks generalizing rb with
  | nil => exact ⟨[], hstop, rfl⟩
  | cons chunk chunks ih =>
    obtain ⟨d, samples⟩ := chunk
    have hshape := rb.sameShape_exec (.addSamples d samples)
    obtain ⟨d', he⟩ := hexp
    have hexp₁ : ∃ d', ((rb.addSamples d samples).source d').expected = true :=
      ⟨d', (hshape.expected d').trans he⟩
    have hsize : (rb.addSamples d samples).Sized := h.of_sameShape hshape
    obtain ⟨windows, rb', hdrain⟩ := exists_drainWindows hsize
      (by rwa [windowSizeSamples_addSamples]) hexp₁ (Nat.lt_succ_self _)
    obtain ⟨-, hshape', -⟩ := drainWindows_end hdrain
    obtain ⟨ops, hkeep, hchunks⟩ := ih (hsize.of_sameShape hshape')
      (by rwa [hshape'.windowSize, windowSizeSamples_addSamples])
      ⟨d', (hshape'.expected d').trans ((hshape.expected d').trans he)⟩ (drainWindows_stops hdrain)
    refine ⟨.addSamples d samples :: (List.replicate windows.length MixerOp.extractWindow ++ ops),
      ⟨hstop, keepsUp_drain hdrain hkeep⟩, ?_⟩
    rw [chunksOf, chunksOf_drain, hchunks]

/-- A fresh ring buffer with a source waits. -/
theorem extractWindow_start {sampleRate : ℕ} (hw : 0 < samplesOfMs sampleRate 50)
    {mic system : Bool} (h : (mic || system) = true) :
    (start sampleRate mic system : AudioMixerRingBuffer α).extractWindow = none := by
  obtain ⟨d, he⟩ := expected_start (α := α) sampleRate h
  refine extractWindow_eq_none_iff.mpr (Or.inr ⟨d, ?_⟩)
  have hfront : ∀ d', ((start sampleRate mic system : AudioMixerRingBuffer α).source
      d').frontier 0 = 0 := by
    rintro (_ | _) <;> cases mic <;> cases system <;> rfl
  have hcov : (start sampleRate mic system : AudioMixerRingBuffer α).covered d = false := by
    rw [covered, he]
    show (false || decide (0 + samplesOfMs sampleRate 50 ≤ SourceState.frontier _ 0)) = false
    rw [hfront, Bool.false_or, decide_eq_false_iff_not]
    omega
  rw [awaits, hcov]
  show (true && decide (SourceState.frontier _ 0 - 0 ≤ _)) = true
  rw [hfront]
  simp

/-- From 20 Hz on, whatever the chunks. -/
theorem exists_keepsUp {sampleRate : ℕ} (hrate : 20 ≤ sampleRate) {mic system : Bool}
    (hsource : (mic || system) = true) (chunks : List (DeviceType × List α)) :
    ∃ ops, (start sampleRate mic system).KeepsUp ops ∧ chunksOf ops = chunks :=
  exists_keepsUp_of_waits (sized_start sampleRate mic system) (samplesOfMs_pos hrate)
    (expected_start _ hsource) (extractWindow_start (samplesOfMs_pos hrate) hsource) chunks

end Exists

/-! ## The label run keeps up with the real one -/

theorem keepsUp_map {β : Type v} [Zero β] {f : DeviceType → α → β} (hf : ∀ d, f d 0 = 0)
    (rb : AudioMixerRingBuffer α) (ops : List (MixerOp α)) :
    (rb.map f).KeepsUp (ops.map (MixerOp.map f)) ↔ rb.KeepsUp ops := by
  have hwaits : ∀ rb : AudioMixerRingBuffer α,
      (rb.map f).extractWindow = none ↔ rb.extractWindow = none := by
    intro rb
    rw [extractWindow_map hf, Option.map_eq_none_iff]
  induction ops generalizing rb with
  | nil => exact hwaits rb
  | cons op ops ih =>
    cases op with
    | addSamples d samples =>
      rw [List.map_cons, MixerOp.map, KeepsUp, KeepsUp, hwaits, addSamples_map]
      exact and_congr_right fun _ => ih _
    | extractWindow =>
      have hnext : ((rb.map f).exec .extractWindow).2 = (rb.exec .extractWindow).2.map f := by
        have := congrArg Prod.snd (exec_map hf rb .extractWindow)
        exact this
      rw [List.map_cons, MixerOp.map, KeepsUp, KeepsUp, hnext]
      exact ih _

theorem keepsUp_labelled {sampleRate : ℕ} {mic system : Bool} {ops : List (MixerOp α)} :
    (start sampleRate mic system).KeepsUp (labelled (fun _ => 0) ops) ↔
      (start sampleRate mic system).KeepsUp ops := by
  have hmap := keepsUp_map (arrived_zero ops) (start sampleRate mic system)
    (labelled (fun _ => 0) ops)
  rw [map_arrived_labelled] at hmap
  exact hmap.symm

/-- The chunks of the label run are as long as the real ones. -/
theorem exists_chunk_of_labelled {ops : List (MixerOp α)} {d : DeviceType} {chunk : List Label}
    (h : .addSamples d chunk ∈ labelled (fun _ => 0) ops) :
    ∃ samples, .addSamples d samples ∈ ops ∧ samples.length = chunk.length := by
  have hmem := List.mem_map_of_mem (f := MixerOp.map (arrived ops)) h
  rw [map_arrived_labelled] at hmem
  exact ⟨_, hmem, List.length_map _⟩

/-! ## Every run that keeps up -/

/-- **Nothing is dropped while both keep up.** In the label run every received sample of an
expected source is handed out, still buffered, or dropped by a call, and a call drops only
samples of a source that lies behind. -/
structure DropsOnlyBehind (sampleRate : ℕ) (mic system : Bool) (ops : List (MixerOp α)) :
    Prop where
  /-- where each received sample is -/
  accounts : ∀ d, ∀ j < (receivedFrom d ops).length,
    .nth j ∈ stream d (labelRun sampleRate mic system ops).1 ∨
      .nth j ∈ ((labelRun sampleRate mic system ops).2.source d).buffer ∨
      ∃ pre op post, labelled (fun _ => 0) ops = pre ++ op :: post ∧
        ((start sampleRate mic system).run pre).2.Discards op d (.nth j)
  /-- what is dropped -/
  behind : ∀ pre op post, labelled (fun _ => 0) ops = pre ++ op :: post →
    ∀ d, (((start sampleRate mic system).run pre).2.source d).expected = true → ∀ j,
      ((start sampleRate mic system).run pre).2.Discards op d (.nth j) →
        ((start sampleRate mic system).run pre).2.Behind d

/-- **The output is the input.** The windows and the final flush hand out what the device
delivered and the zeros that fill up its last window. -/
def KeepsStream (sampleRate : ℕ) (mic system : Bool) (ops : List (MixerOp α)) (d : DeviceType) :
    Prop :=
  ∃ fuel windows rb', flushFinal fuel ((start sampleRate mic system).run ops).2 =
      some (windows, rb') ∧
    ∃ zeros < samplesOfMs sampleRate 50,
      zeros = padding (samplesOfMs sampleRate 50) (receivedFrom d ops).length ∧
      stream d (((start sampleRate mic system).run ops).1 ++ windows) =
        receivedFrom d ops ++ List.replicate zeros 0

theorem dropsOnlyBehind_of_keepsUp {sampleRate : ℕ} {mic system : Bool} {ops : List (MixerOp α)}
    (hkeep : (start sampleRate mic system).KeepsUp ops)
    (hroom : ∀ d samples, .addSamples d samples ∈ ops → samples.length ≤
      (start sampleRate mic system : AudioMixerRingBuffer α).chunkRoom) :
    DropsOnlyBehind sampleRate mic system ops where
  accounts := by
    intro d j hj
    refine run_accounts (Or.inr ?_)
    rw [receivedFrom_labelled, mem_labels]
    omega
  behind := by
    intro pre op post hops d he j hdrop
    have hkeep' := keepsUp_labelled.mpr hkeep
    rw [hops] at hkeep'
    have hshape := (start sampleRate mic system : AudioMixerRingBuffer Label).sameShape_run pre
    refine behind_of_discards (paced_start sampleRate mic system _)
      (anchoredBy_start sampleRate mic system _) hkeep' ?_ ((hshape.expected d).symm.trans he)
      (Label.nth_ne_zero j) hdrop
    rintro d' chunk rfl
    have hchunk : .addSamples d' chunk ∈ labelled (fun _ => 0) ops :=
      hops ▸ List.mem_append_right _ List.mem_cons_self
    obtain ⟨samples, hmem, hlen⟩ := exists_chunk_of_labelled hchunk
    rw [← hlen]
    exact hroom d' samples hmem

/-- A run that keeps up has a window size. -/
theorem windowSize_pos_of_keepsUp {sampleRate : ℕ} {mic system : Bool} {ops : List (MixerOp α)}
    (hkeep : (start sampleRate mic system).KeepsUp ops) {d : DeviceType}
    (he : ((start sampleRate mic system : AudioMixerRingBuffer α).source d).expected = true) :
    0 < samplesOfMs sampleRate 50 := by
  have hshape := (start sampleRate mic system : AudioMixerRingBuffer α).sameShape_run ops
  by_contra hw
  have hzero : ((start sampleRate mic system : AudioMixerRingBuffer α).run
      ops).2.windowSizeSamples = 0 := by
    rw [hshape.windowSize]
    exact Nat.eq_zero_of_not_pos hw
  have hnone := drainWindows_of_size_zero (settled_run (settled_start sampleRate mic system) ops)
    hzero ⟨d, (hshape.expected d).trans he⟩ 1
  rw [drainWindows, hkeep.waits] at hnone
  exact absurd hnone (by simp)

theorem keepsStream_of_keepsUp {sampleRate : ℕ} {mic system : Bool} {ops : List (MixerOp α)}
    (hkeep : (start sampleRate mic system).KeepsUp ops)
    (hroom : ∀ d samples, .addSamples d samples ∈ ops → samples.length ≤
      (start sampleRate mic system : AudioMixerRingBuffer α).chunkRoom)
    {d : DeviceType}
    (he : ((start sampleRate mic system : AudioMixerRingBuffer α).source d).expected = true)
    (ho : ((start sampleRate mic system : AudioMixerRingBuffer α).source d.other).expected =
      false) : KeepsStream sampleRate mic system ops d := by
  have hw := windowSize_pos_of_keepsUp hkeep he
  have hrun := (singleStream_start sampleRate he ho).run hw (sized_start sampleRate mic system).limit
    hkeep hroom
  have hset := settled_run (settled_start (α := α) sampleRate mic system) ops
  have hshape := (start sampleRate mic system : AudioMixerRingBuffer α).sameShape_run ops
  have hsilent := hset.silent d.other ((hshape.expected _).trans ho)
  obtain ⟨windows, rb', hflush, hout⟩ := hrun.flushFinal hkeep.waits hsilent hset.grid
  refine ⟨1, windows, rb', hflush, _, padding_lt hw _, rfl, ?_⟩
  rw [List.nil_append, List.nil_append, ← stream_append, hshape.windowSize] at hout
  exact hout

/-- Runs that keep up, with chunks that fit beside what a waiting source can hold: samples of an
expected source are dropped only while it lies behind the other, and a single source comes out
as it went in. -/
theorem keepsUp_run {sampleRate : ℕ} {mic system : Bool} {ops : List (MixerOp α)}
    (hkeep : (start sampleRate mic system).KeepsUp ops)
    (hroom : ∀ d samples, .addSamples d samples ∈ ops → samples.length ≤
      (start sampleRate mic system : AudioMixerRingBuffer α).chunkRoom) :
    DropsOnlyBehind sampleRate mic system ops ∧
      ∀ d, ((start sampleRate mic system : AudioMixerRingBuffer α).source d).expected = true →
        ((start sampleRate mic system : AudioMixerRingBuffer α).source d.other).expected = false →
        KeepsStream sampleRate mic system ops d :=
  ⟨dropsOnlyBehind_of_keepsUp hkeep hroom, fun _ he ho => keepsStream_of_keepsUp hkeep hroom he ho⟩

/-- A microphone alone, with a chunk of a window and a half. -/
theorem keepsUp_run_microphone :
    DropsOnlyBehind 48000 true false
        [.addSamples .microphone (List.replicate 3600 (0 : Float32)), .extractWindow] ∧
      ∀ d, ((start 48000 true false : AudioMixerRingBuffer Float32).source d).expected = true →
        ((start 48000 true false : AudioMixerRingBuffer Float32).source d.other).expected =
          false →
        KeepsStream 48000 true false
          [.addSamples .microphone (List.replicate 3600 (0 : Float32)), .extractWindow] d := by
  refine keepsUp_run ⟨?_, ?_⟩ ?_
  · exact extractWindow_start (samplesOfMs_pos (by decide)) rfl
  · exact extractWindow_eq_none_iff.mpr (Or.inr ⟨.microphone, by decide +kernel⟩)
  · intro d samples hmem
    rcases List.mem_cons.mp hmem with hchunk | hmem
    · injection hchunk with _ hsamples
      rw [hsamples, List.length_replicate]
      decide +kernel
    · exact absurd (List.mem_singleton.mp hmem) nofun

omit [Zero α] in
/-- The first chunk of a microphone, when it fits. -/
theorem mic_addSamples_start (sampleRate : ℕ) (system : Bool) {samples : List α}
    (hne : samples ≠ []) (hroom : samples.length ≤ samplesOfMs sampleRate 4800) :
    ((start sampleRate true system).addSamples .microphone samples).mic =
      ⟨true, true, samples, 0, samples.length, 0⟩ := by
  have hlen := List.length_pos_of_ne_nil hne
  have hcap : ¬ samplesOfMs sampleRate 4800 < samples.length := not_lt.mpr hroom
  simp [addSamples, start, new, setExpectedSources, SourceState.fresh, SourceState.ingest,
    SourceState.anchored, SourceState.anchor, SourceState.absorb, SourceState.capped, hne, hcap]

omit [Zero α] in
/-- The safety cap drops the first sample of a microphone that lies behind nothing. -/
theorem not_dropsOnlyBehind_of_lengths {sampleRate : ℕ} {held next : List α} (hheld : held ≠ [])
    (hroom : held.length ≤ samplesOfMs sampleRate 4800)
    (hover : samplesOfMs sampleRate 4800 < held.length + next.length) (ops : List (MixerOp α)) :
    ¬ DropsOnlyBehind sampleRate true true
      (.addSamples .microphone held :: .addSamples .microphone next :: ops) := by
  intro h
  have hlen := List.length_pos_of_ne_nil hheld
  have hlabels : labels 0 held.length ≠ [] := List.ne_nil_of_length_pos (by rwa [length_labels])
  have hmic := mic_addSamples_start sampleRate true hlabels (by rwa [length_labels])
  rw [length_labels] at hmic
  have hops : labelled (fun _ => 0)
      (.addSamples .microphone held :: .addSamples .microphone next :: ops) =
        [.addSamples .microphone (labels 0 held.length)] ++
          .addSamples .microphone (labels held.length next.length) ::
            labelled (Function.update (Function.update (fun _ => 0) .microphone held.length)
              .microphone (held.length + next.length)) ops := by
    rw [labelled, labelled, Function.update_self, Nat.zero_add]
    rfl
  have hdrop : ((start sampleRate true true).addSamples .microphone
      (labels 0 held.length)).Discards (.addSamples .microphone (labels held.length next.length))
        .microphone (.nth 0) := by
    refine ⟨Or.inl ?_, ?_, List.not_mem_nil⟩
    · rw [source, hmic, mem_labels]
      omega
    · have hcap : ((start sampleRate true true : AudioMixerRingBuffer Label).addSamples .microphone
          (labels 0 held.length)).maxBufferSize = samplesOfMs sampleRate 4800 := rfl
      rw [exec, source_addSamples_self, source, hmic, hcap, SourceState.ingest_buffer rfl
        (fun _ => Nat.zero_le _) (by rwa [length_labels]), length_labels, length_labels]
      -- the cap leaves the labels past the excess
      obtain ⟨excess, hexcess⟩ : ∃ k, held.length + next.length - samplesOfMs sampleRate 4800 = k :=
        ⟨_, rfl⟩
      have hsplit : labels 0 held.length ++ labels held.length next.length =
          labels 0 excess ++ labels excess (held.length + next.length - excess) := by
        have hleft := labels_add 0 held.length next.length
        have hright := labels_add 0 excess (held.length + next.length - excess)
        rw [Nat.zero_add] at hleft hright
        rw [hleft, hright, Nat.add_sub_cancel' (by omega)]
      rw [hexcess, hsplit, List.drop_left' (length_labels _ _), mem_labels]
      omega
  have hbehind := h.behind _ _ _ hops .microphone ((sameShape_run _ _).expected .microphone) 0 hdrop
  have hlag : samplesOfMs sampleRate 50 ≤ samplesOfMs sampleRate 500 :=
    samplesOfMs_mono sampleRate (by norm_num)
  have hfront : ((start sampleRate true true : AudioMixerRingBuffer Label).addSamples .microphone
      (labels 0 held.length)).frontierOf .microphone = held.length := by
    rw [frontierOf, source, hmic]
    rfl
  have hbehind' : ((start sampleRate true true : AudioMixerRingBuffer Label).addSamples .microphone
      (labels 0 held.length)).frontierOf .microphone + samplesOfMs sampleRate 500 <
        0 + samplesOfMs sampleRate 50 := hbehind
  omega

/-- A microphone that leads by the whole lag, and goes on with the longest chunk that fits beside
one window. -/
theorem not_dropsOnlyBehind_of_overflow :
    ∃ ops : List (MixerOp Float32), (start 48000 true true).KeepsUp ops ∧
      (∀ d samples, .addSamples d samples ∈ ops →
        samples.length ≤ samplesOfMs 48000 4800 - samplesOfMs 48000 50) ∧
      ¬ DropsOnlyBehind 48000 true true ops := by
  have hM : samplesOfMs 48000 4800 = 230400 := by decide +kernel
  have hL : samplesOfMs 48000 500 = 24000 := by decide +kernel
  have hw : samplesOfMs 48000 50 = 2400 := by decide +kernel
  obtain ⟨held, hheld⟩ : ∃ held : List Float32, held.length = 24000 :=
    ⟨List.replicate 24000 0, List.length_replicate⟩
  obtain ⟨next, hnext⟩ : ∃ next : List Float32, next.length = 228000 :=
    ⟨List.replicate 228000 0, List.length_replicate⟩
  have hne : held ≠ [] := List.ne_nil_of_length_pos (by omega)
  have hmic := mic_addSamples_start 48000 true hne (by omega)
  have hsize := sized_start (α := Float32) 48000 true true
  have hsize' : (((start 48000 true true).addSamples .microphone held).addSamples
      .microphone next).Sized :=
    hsize.of_sameShape (sameShape_run _ [.addSamples .microphone held,
      .addSamples .microphone next])
  obtain ⟨windows, rb', hdrain⟩ := exists_drainWindows hsize'
    (lt_of_lt_of_eq (by decide) hw.symm)
    ⟨.system, rfl⟩ (Nat.lt_succ_self _)
  refine ⟨.addSamples .microphone held :: .addSamples .microphone next ::
    (List.replicate windows.length MixerOp.extractWindow ++ []), ⟨?_, ?_, ?_⟩, ?_, ?_⟩
  · exact extractWindow_start (samplesOfMs_pos (by decide)) rfl
  · -- the system has delivered nothing, and the microphone leads by the lag and no more
    have hcov : ((start 48000 true true).addSamples .microphone held).covered .system = false := by
      rw [← Bool.not_eq_true, covered_iff rfl]
      show ¬ 0 + samplesOfMs 48000 50 ≤ 0
      omega
    have hlead : ((start 48000 true true).addSamples .microphone held).mic.frontier 0 ≤
        samplesOfMs 48000 500 := by
      rw [hmic]
      show held.length ≤ _
      omega
    refine extractWindow_eq_none_iff.mpr (Or.inr ⟨.system, ?_⟩)
    rw [awaits, hcov]
    exact decide_eq_true hlead
  · exact keepsUp_drain hdrain (drainWindows_stops hdrain)
  · intro d samples hmem
    rw [List.append_nil, List.mem_cons, List.mem_cons] at hmem
    rcases hmem with hchunk | hchunk | hextract
    · injection hchunk with _ hsamples
      rw [hsamples]
      omega
    · injection hchunk with _ hsamples
      rw [hsamples]
      omega
    · exact absurd (List.eq_of_mem_replicate hextract) (by simp)
  · exact not_dropsOnlyBehind_of_lengths hne (by omega) (by omega) _

end AudioMixerRingBuffer

end MeetilyLocal
