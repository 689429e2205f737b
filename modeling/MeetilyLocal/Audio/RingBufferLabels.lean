import MeetilyLocal.Audio.RingBufferAlignment

/-!
# Where each emitted sample came from

The ring buffer moves samples and never looks at them, so a run commutes with any change of
sample type that keeps zero (`AudioMixerRingBuffer.run_map`). Feeding it *labels*, each sample
replaced by its arrival number, therefore shows where every sample of the real run ends up: the
real windows are the label windows with each label replaced by the sample it stands for.

In the label run no two samples are equal and none is zero, so what it emits says exactly which
sample went where.
-/

namespace MeetilyLocal

universe u v

open Timeline AudioMixerRingBuffer

variable {α : Type u} {β : Type v}

/-! ## Changing the sample type -/

/-- Replace every sample of a source. -/
def SourceState.map (f : α → β) (src : SourceState α) : SourceState β :=
  ⟨src.expected, src.seen, src.buffer.map f, src.bufStartPos, src.rawNextPos, src.discardBefore⟩

/-- Replace every sample of a window, device by device. -/
def MixWindow.map (f : DeviceType → α → β) (window : MixWindow α) : MixWindow β :=
  ⟨window.mic.map (f .microphone), window.system.map (f .system)⟩

/-- Replace every sample of a chunk. -/
def MixerOp.map (f : DeviceType → α → β) : MixerOp α → MixerOp β
  | .addSamples d samples => .addSamples d (samples.map (f d))
  | .extractWindow => .extractWindow

/-- Replace every sample of a ring buffer. -/
def AudioMixerRingBuffer.map (f : DeviceType → α → β) (rb : AudioMixerRingBuffer α) :
    AudioMixerRingBuffer β :=
  ⟨rb.mic.map (f .microphone), rb.system.map (f .system), rb.windowSizeSamples, rb.maxBufferSize,
    rb.maxLagSamples, rb.windowPos, rb.sampleCounter⟩

theorem MixWindow.source_map (f : DeviceType → α → β) (window : MixWindow α) (d : DeviceType) :
    (window.map f).source d = (window.source d).map (f d) := by
  cases d <;> rfl

namespace SourceState

theorem anchored_map (f : α → β) (src : SourceState α) (oe os : Bool) (or : ℕ) :
    (src.map f).anchored oe os or = (src.anchored oe os or).map f := by
  cases hs : src.seen <;> simp [anchored, map, anchor, hs]

theorem capped_map (f : α → β) (src : SourceState α) (M : ℕ) :
    (src.map f).capped M = (src.capped M).map f := by
  simp only [capped, map, List.length_map]
  split_ifs <;> simp [List.map_drop]

theorem absorb_map (f : α → β) (src : SourceState α) (start : ℕ) (samples : List α) (M : ℕ) :
    (src.map f).absorb start (samples.map f) M = (src.absorb start samples M).map f := by
  have hempty : (src.map f).buffer.isEmpty = src.buffer.isEmpty := by simp [map]
  simp only [absorb, List.length_map, hempty]
  rw [apply_ite (map f), apply_ite (map f), ← capped_map]
  simp [map, List.map_drop]

theorem ingest_map (f : α → β) (src : SourceState α) (M : ℕ) (oe os : Bool) (or : ℕ)
    (samples : List α) :
    (src.map f).ingest M oe os or (samples.map f) = (src.ingest M oe os or samples).map f := by
  have hempty : (samples.map f).isEmpty = samples.isEmpty := by simp
  simp only [ingest, hempty, anchored_map, List.length_map]
  rw [apply_ite (map f), ← absorb_map]
  rfl

theorem realigned_map (f : α → β) (src : SourceState α) (wp : ℕ) :
    (src.map f).realigned wp = (src.realigned wp).map f := by
  simp only [realigned, map, List.length_map]
  split_ifs <;> simp [List.map_drop]

variable [Zero α] [Zero β]

theorem resize_map {f : α → β} (hf : f 0 = 0) (xs : List α) (n : ℕ) :
    resize (xs.map f) n = (resize xs n).map f := by
  simp [resize, List.map_take, hf]

theorem takeWindow_map {f : α → β} (hf : f 0 = 0) (src : SourceState α) (g : Bool)
    (wp w : ℕ) :
    (src.map f).takeWindow g wp w =
      ((src.takeWindow g wp w).1.map f, (src.takeWindow g wp w).2.map f) := by
  have hzeros : (List.replicate w (0 : α)).map f = List.replicate w 0 := by
    simp [hf]
  cases he : src.expected with
  | false =>
    have he' : (src.map f).expected = false := he
    rw [takeWindow_of_not_expected he, takeWindow_of_not_expected he', hzeros]
  | true =>
    cases g with
    | true => simp [takeWindow, he, hzeros, map]
    | false =>
      have he' : (src.map f).expected = true := he
      simp only [takeWindow, he, he', Bool.not_true, Bool.false_eq_true, if_false]
      by_cases hskip : (!src.seen || decide (wp + w ≤ src.bufStartPos)) = true
      · have hskip' : (!(src.map f).seen || decide (wp + w ≤ (src.map f).bufStartPos)) = true :=
          hskip
        rw [if_pos hskip, if_pos hskip', hzeros]
      · have hskip' : ¬ (!(src.map f).seen || decide (wp + w ≤ (src.map f).bufStartPos)) = true :=
          hskip
        rw [if_neg hskip, if_neg hskip']
        rw [realigned_map, ← resize_map hf]
        simp [map, List.map_take, List.map_drop, hf]

end SourceState

namespace AudioMixerRingBuffer

theorem source_map (f : DeviceType → α → β) (rb : AudioMixerRingBuffer α) (d : DeviceType) :
    (rb.map f).source d = (rb.source d).map (f d) := by
  cases d <;> rfl

theorem addSamples_map (f : DeviceType → α → β) (rb : AudioMixerRingBuffer α) (d : DeviceType)
    (samples : List α) :
    (rb.map f).addSamples d (samples.map (f d)) = (rb.addSamples d samples).map f := by
  cases d
  all_goals
    simp only [addSamples, map, ← SourceState.ingest_map]
    rfl

variable [Zero α] [Zero β] {f : DeviceType → α → β}

theorem extractWindow_map (hf : ∀ d, f d 0 = 0) (rb : AudioMixerRingBuffer α) :
    (rb.map f).extractWindow = rb.extractWindow.map fun (window, rb') =>
      (window.map f, rb'.map f) := by
  have hplan : (rb.map f).planWindow = rb.planWindow := rfl
  simp only [extractWindow, hplan]
  rcases rb.planWindow with _ | ⟨micGap, sysGap⟩
  · rfl
  · simp only [map, SourceState.takeWindow_map (hf .microphone),
      SourceState.takeWindow_map (hf .system), Option.map_some, MixWindow.map]

theorem exec_map (hf : ∀ d, f d 0 = 0) (rb : AudioMixerRingBuffer α) (op : MixerOp α) :
    (rb.map f).exec (op.map f) = ((rb.exec op).1.map (MixWindow.map f), (rb.exec op).2.map f) := by
  cases op with
  | addSamples d samples => rw [exec, MixerOp.map, exec, addSamples_map, Option.map_none]
  | extractWindow =>
    rw [exec, MixerOp.map, exec, extractWindow_map hf]
    rcases rb.extractWindow with _ | ⟨window, rb'⟩
    · rfl
    · rfl

/-- A run commutes with a change of the sample type that keeps zero. -/
theorem run_map (hf : ∀ d, f d 0 = 0) (rb : AudioMixerRingBuffer α) (ops : List (MixerOp α)) :
    (rb.map f).run (ops.map (MixerOp.map f)) =
      ((rb.run ops).1.map (MixWindow.map f), (rb.run ops).2.map f) := by
  induction ops generalizing rb with
  | nil => rfl
  | cons op ops ih =>
    rw [List.map_cons, run, exec_map hf, ih]
    cases h : (rb.exec op).1 <;> simp [run, h]

theorem anchorOf_map (hf : ∀ d, f d 0 = 0) (d : DeviceType) (rb : AudioMixerRingBuffer α)
    (ops : List (MixerOp α)) :
    anchorOf d (rb.map f) (ops.map (MixerOp.map f)) = anchorOf d rb ops := by
  induction ops generalizing rb with
  | nil => cases d <;> rfl
  | cons op ops ih =>
    have hnext : ((rb.map f).exec (op.map f)).2 = (rb.exec op).2.map f := by rw [exec_map hf]
    cases op with
    | addSamples d' samples =>
      by_cases hfirst : d' = d ∧ samples ≠ []
      · obtain ⟨rfl, hne⟩ := hfirst
        rw [List.map_cons, MixerOp.map, anchorOf_addSamples_self _ _ (by simpa using hne),
          anchorOf_addSamples_self _ _ hne]
        simp only [source_map]
        rfl
      · have hfirst' : ¬ (d' = d ∧ samples.map (f d') ≠ []) := by simpa using hfirst
        rw [List.map_cons, anchorOf_addSamples_of_not rb hfirst, ← ih, ← hnext, MixerOp.map,
          anchorOf_addSamples_of_not _ hfirst']
    | extractWindow =>
      rw [List.map_cons, MixerOp.map, anchorOf_extractWindow, anchorOf_extractWindow, ← ih, ← hnext,
        MixerOp.map]

end AudioMixerRingBuffer

/-! ## Labels -/

/-- A sample type that says where a sample came from. -/
inductive Label : Type where
  /-- a zero the mixer filled in -/
  | silence : Label
  /-- the received sample with this arrival number -/
  | nth : ℕ → Label
  deriving DecidableEq, Repr

instance : Zero Label := ⟨.silence⟩

theorem Label.nth_ne_zero (j : ℕ) : Label.nth j ≠ 0 := nofun

/-- The labels of `n` samples, numbered from `first`. -/
def labels (first n : ℕ) : List Label := (List.range n).map fun i => .nth (first + i)

/-- The calls `ops` with every sample replaced by its arrival number, `next d` samples having
arrived from `d` before. -/
def labelled : (DeviceType → ℕ) → List (MixerOp α) → List (MixerOp Label)
  | _, [] => []
  | next, .addSamples d samples :: ops =>
    .addSamples d (labels (next d) samples.length) ::
      labelled (Function.update next d (next d + samples.length)) ops
  | next, .extractWindow :: ops => .extractWindow :: labelled next ops

/-- The sample that a label of device `d` stands for; silence stands for itself. -/
def arrived [Zero α] (ops : List (MixerOp α)) (d : DeviceType) : Label → α
  | .silence => 0
  | .nth j => ((receivedFrom d ops)[j]?).getD 0

theorem getElem?_labels {first n i : ℕ} :
    (labels first n)[i]? = if i < n then some (.nth (first + i)) else none := by
  by_cases h : i < n <;> simp [labels, h]

@[simp] theorem length_labels (first n : ℕ) : (labels first n).length = n := by
  simp [labels]

theorem mem_labels {first n j : ℕ} : Label.nth j ∈ labels first n ↔ first ≤ j ∧ j < first + n := by
  simp only [labels, List.mem_map, List.mem_range, Label.nth.injEq]
  constructor
  · rintro ⟨i, hi, rfl⟩
    omega
  · rintro ⟨hle, hlt⟩
    exact ⟨j - first, by omega, by omega⟩

theorem labels_add (first m n : ℕ) :
    labels first m ++ labels (first + m) n = labels first (m + n) := by
  simp [labels, List.range_add, Nat.add_assoc]

/-- What the label run receives from a device are the labels in order. -/
theorem receivedFrom_labelled (d : DeviceType) (next : DeviceType → ℕ) (ops : List (MixerOp α)) :
    receivedFrom d (labelled next ops) = labels (next d) (receivedFrom d ops).length := by
  induction ops generalizing next with
  | nil => rfl
  | cons op ops ih =>
    cases op with
    | addSamples d' samples =>
      by_cases hd : d' = d
      · subst hd
        rw [labelled, receivedFrom_addSamples_self, receivedFrom_addSamples_self, ih,
          Function.update_self, labels_add, List.length_append]
      · rw [labelled, receivedFrom_addSamples_of_ne hd, receivedFrom_addSamples_of_ne hd, ih,
          Function.update_of_ne (Ne.symm hd)]
    | extractWindow => exact ih next

/-- Reading the labels back gives the calls they were made from. -/
theorem map_labelled [Zero α] {f : DeviceType → Label → α} {next : DeviceType → ℕ}
    {ops : List (MixerOp α)}
    (hf : ∀ d i x, (receivedFrom d ops)[i]? = some x → f d (.nth (next d + i)) = x) :
    (labelled next ops).map (MixerOp.map f) = ops := by
  induction ops generalizing next with
  | nil => rfl
  | cons op ops ih =>
    cases op with
    | addSamples d samples =>
      have hchunk : (labels (next d) samples.length).map (f d) = samples := by
        apply List.ext_getElem?
        intro i
        rw [List.getElem?_map, getElem?_labels]
        by_cases hi : i < samples.length
        · have hx : (receivedFrom d (.addSamples d samples :: ops))[i]? = some samples[i] := by
            rw [receivedFrom_addSamples_self, List.getElem?_append_left hi,
              List.getElem?_eq_getElem hi]
          rw [if_pos hi, List.getElem?_eq_getElem hi, Option.map_some, hf d i _ hx]
        · rw [if_neg hi, List.getElem?_eq_none (not_lt.mp hi), Option.map_none]
      have hrest : (labelled (Function.update next d (next d + samples.length)) ops).map
          (MixerOp.map f) = ops := by
        refine ih fun d' i x hx => ?_
        by_cases hd : d' = d
        · subst hd
          rw [Function.update_self, Nat.add_assoc]
          refine hf d' _ x ?_
          rwa [receivedFrom_addSamples_self, List.getElem?_append_right (Nat.le_add_right _ _),
            Nat.add_sub_cancel_left]
        · rw [Function.update_of_ne hd]
          refine hf d' i x ?_
          rwa [receivedFrom_addSamples_of_ne (Ne.symm hd)]
      rw [labelled, List.map_cons, MixerOp.map, hchunk, hrest]
    | extractWindow =>
      rw [labelled, List.map_cons, MixerOp.map]
      exact congrArg _ (ih hf)

variable [Zero α]

/-- The label run of `ops` on a fresh ring buffer. -/
def labelRun (sampleRate : ℕ) (mic system : Bool) (ops : List (MixerOp α)) :
    List (MixWindow Label) × AudioMixerRingBuffer Label :=
  (AudioMixerRingBuffer.start sampleRate mic system).run (labelled (fun _ => 0) ops)

namespace AudioMixerRingBuffer

theorem arrived_zero (ops : List (MixerOp α)) (d : DeviceType) : arrived ops d 0 = 0 := rfl

theorem map_arrived_labelled (ops : List (MixerOp α)) :
    (labelled (fun _ => 0) ops).map (MixerOp.map (arrived ops)) = ops := by
  refine map_labelled fun d i x hx => ?_
  show ((receivedFrom d ops)[0 + i]?).getD 0 = x
  rw [Nat.zero_add, hx, Option.getD_some]

/-- The real run is the label run with every label read back. -/
theorem run_start_eq (sampleRate : ℕ) (mic system : Bool) (ops : List (MixerOp α)) :
    (start sampleRate mic system).run ops =
      ((labelRun sampleRate mic system ops).1.map (MixWindow.map (arrived ops)),
        (labelRun sampleRate mic system ops).2.map (arrived ops)) := by
  have hstart : (start sampleRate mic system : AudioMixerRingBuffer α) =
      (start sampleRate mic system : AudioMixerRingBuffer Label).map (arrived ops) := rfl
  rw [hstart, labelRun, ← run_map (arrived_zero ops), map_arrived_labelled]

/-- The anchors of a real run and of its label run are the same. -/
theorem anchorOf_labelled (sampleRate : ℕ) (mic system : Bool) (ops : List (MixerOp α))
    (d : DeviceType) :
    anchorOf d (start sampleRate mic system) (labelled (fun _ => 0) ops) =
      anchorOf d (start sampleRate mic system) ops := by
  rw [← anchorOf_map (arrived_zero ops), map_arrived_labelled]
  rfl

/-- Fresh sources are anchored by the calls to come. -/
theorem anchoredBy_start (sampleRate : ℕ) (mic system : Bool) (ops : List (MixerOp α)) :
    (start sampleRate mic system).AnchoredBy
      (fun d => anchorOf d (start sampleRate mic system) ops) ops :=
  fun _ _ _ => rfl

/-- Sample number `j` of device `d` stands at index `i` of the `k`-th window. -/
def EmittedAt (windows : List (MixWindow Label)) (d : DeviceType) (j k i : ℕ) : Prop :=
  ∃ window, windows[k]? = some window ∧ (window.source d)[i]? = some (.nth j)

/-- An emitted sample is one that was received, and stands where it is anchored. -/
theorem emittedAt_labelRun {sampleRate : ℕ} {mic system : Bool} {ops : List (MixerOp α)}
    {d : DeviceType} {j k i : ℕ}
    (h : EmittedAt (labelRun sampleRate mic system ops).1 d j k i) :
    i < samplesOfMs sampleRate 50 ∧ j < (receivedFrom d ops).length ∧
      anchorOf d (start sampleRate mic system) ops + j = k * samplesOfMs sampleRate 50 + i := by
  obtain ⟨window, hk, hi⟩ := h
  have hpos : (start sampleRate mic system : AudioMixerRingBuffer Label).windowPos =
      0 * samplesOfMs sampleRate 50 := (Nat.zero_mul _).symm
  obtain ⟨hlt, j', hj', hplace⟩ := run_sample (follows_start sampleRate mic system _)
    (anchoredBy_start sampleRate mic system (labelled (fun _ => 0) ops)) hpos hk hi
    (Label.nth_ne_zero j)
  rw [List.nil_append, receivedFrom_labelled, getElem?_labels] at hj'
  split_ifs at hj' with hlen
  obtain rfl : j' = j := by simpa using hj'
  rw [anchorOf_labelled, Nat.zero_add] at hplace
  exact ⟨hlt, hlen, hplace⟩

/-- **Alignment.** Whatever the calls, the emitted windows are those of the label run with each
label read as the sample it stands for; sample number `j` of a device stands at index `i` of the
`k`-th window only where it is anchored; and it stands in one place only. -/
theorem emitted_windows_aligned (sampleRate : ℕ) (mic system : Bool) (ops : List (MixerOp α)) :
    ((start sampleRate mic system).run ops).1 =
        (labelRun sampleRate mic system ops).1.map (MixWindow.map (arrived ops)) ∧
      (∀ d j k i, EmittedAt (labelRun sampleRate mic system ops).1 d j k i →
        i < samplesOfMs sampleRate 50 ∧ j < (receivedFrom d ops).length ∧
          anchorOf d (start sampleRate mic system) ops + j =
            k * samplesOfMs sampleRate 50 + i) ∧
      ∀ d j k i k' i', EmittedAt (labelRun sampleRate mic system ops).1 d j k i →
        EmittedAt (labelRun sampleRate mic system ops).1 d j k' i' → k = k' ∧ i = i' := by
  refine ⟨by rw [run_start_eq], fun d j k i h => emittedAt_labelRun h, ?_⟩
  intro d j k i k' i' h h'
  obtain ⟨hi, -, hplace⟩ := emittedAt_labelRun h
  obtain ⟨hi', -, hplace'⟩ := emittedAt_labelRun h'
  have hsame := hplace.symm.trans hplace'
  have hdiv : ∀ m l, l < samplesOfMs sampleRate 50 →
      (m * samplesOfMs sampleRate 50 + l) / samplesOfMs sampleRate 50 = m := by
    intro m l hl
    rw [Nat.mul_comm, Nat.mul_add_div (Nat.zero_lt_of_lt hl), Nat.div_eq_of_lt hl, Nat.add_zero]
  obtain rfl : k = k' := by rw [← hdiv k i hi, hsame, hdiv k' i' hi']
  exact ⟨rfl, Nat.add_left_cancel hsame⟩

end AudioMixerRingBuffer

end MeetilyLocal
