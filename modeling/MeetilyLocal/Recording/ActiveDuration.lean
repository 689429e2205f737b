import Mathlib.Data.List.Induction
import MeetilyLocal.Recording.RecordingClock

/-!
# The active duration

`get_active_recording_duration` (`audio/recording_state.rs`) over traces of starts, pauses and
resumes. In exact arithmetic it is the time since the last start without the pauses, never negative,
and it stands still while the recording is paused (`activeLaw_of_startsFresh`). This takes that a
start finds no paused time: `start_recording` sets the clock but leaves what was counted of earlier
pauses.

The getter itself converts three durations to `f64` and subtracts them, which rounds
(`getActiveRecordingSeconds`).
-/

namespace MeetilyLocal

namespace RecordingClock

/-- A call on a `RecordingState`, and when. -/
inductive Call : Type where
  /-- `start_recording` -/
  | start : ℕ → Call
  /-- `pause_recording` or `resume_recording` -/
  | toggle : Toggle → Call
  deriving DecidableEq

/-- When a call of `pause_recording` or `resume_recording` is made. -/
def Toggle.time : Toggle → ℕ
  | .pause now => now
  | .resume now => now

/-- When a call is made. -/
def Call.time : Call → ℕ
  | .start now => now
  | .toggle call => call.time

/-- The state after a call. -/
def exec (s : RecordingClock) : Call → RecordingClock
  | .start now => s.startRecording now
  | .toggle call => s.toggle call

/-- The state after calls. -/
def execAll (s : RecordingClock) (calls : List Call) : RecordingClock := calls.foldl exec s

/-- `pause_recording` or `resume_recording` fails. -/
def Rejects (s : RecordingClock) : Toggle → Prop
  | .pause now => (s.pauseRecording now).toOption = none
  | .resume now => (s.resumeRecording now).toOption = none

/-- The last start, and the pauses and resumes since. -/
def sinceStart (calls : List Call) : Option (ℕ × List Toggle) :=
  calls.foldl (fun since call =>
    match call with
    | .start now => some (now, [])
    | .toggle call => since.map fun (start, toggles) => (start, toggles ++ [call])) none

/-- Every start finds the recording not paused, and no paused time. -/
def StartsFresh : RecordingClock → List Call → Prop
  | _, [] => True
  | s, call :: calls =>
    (∀ now, call = .start now → s.isPaused = false ∧ s.totalPauseDuration = 0) ∧
      StartsFresh (s.exec call) calls

/-! ## The getter, rounded -/

/-- `Duration::as_secs_f64`, in `f64` arithmetic -/
def asSecsF64 (nanos : ℕ) : Float :=
  Float.ofNat (nanos / 1000000000) + Float.ofNat (nanos % 1000000000) / 1000000000

/-- `get_active_recording_duration`, in `f64` arithmetic -/
def getActiveRecordingSeconds (now : ℕ) (s : RecordingClock) : Option Float :=
  s.recordingStart.map fun start =>
    let totalDuration := asSecsF64 (now - start)
    let pauseDuration := asSecsF64 s.totalPauseDuration
    let currentPause :=
      if s.isPaused then
        match s.pauseStart with
        | some pauseStart => asSecsF64 (now - pauseStart)
        | none => 0.0
      else 0.0
    totalDuration - pauseDuration - currentPause

/-! ## A recording that runs -/

variable {s : RecordingClock} {start last now now' : ℕ} {call : Toggle} {toggles : List Toggle}
  {calls : List Call}

theorem asSecs_sub {a b : ℕ} (h : b ≤ a) : asSecs a - asSecs b = asSecs (a - b) := by
  rw [sub_eq_iff_eq_add, ← asSecs_add, Nat.sub_add_cancel h]

theorem asSecs_mono {a b : ℕ} (h : a ≤ b) : asSecs a ≤ asSecs b := by
  rw [← sub_nonneg, asSecs_sub h]
  exact div_nonneg (Nat.cast_nonneg _) (by norm_num)

/-- A recording that runs, with its last call at `last`: its pauses lie between its start and then. -/
structure Within (s : RecordingClock) (start last : ℕ) : Prop where
  /-- it runs -/
  runs : s.Runs start s.pauseStart
  /-- the pauses before fit in -/
  total : start + s.totalPauseDuration ≤ s.pauseStart.getD last
  /-- the pause under way has begun -/
  paused : ∀ since, s.pauseStart = some since → since ≤ last

/-- The nanoseconds in which it was active. -/
def activeNanos (s : RecordingClock) (start now : ℕ) : ℕ :=
  s.pauseStart.getD now - start - s.totalPauseDuration

theorem Within.later (h : s.Within start last) (hle : last ≤ now) : s.Within start now := by
  refine ⟨h.runs, h.total.trans ?_, fun since hsince => (h.paused since hsince).trans hle⟩
  cases s.pauseStart with
  | none => exact hle
  | some since => exact le_refl _

/-- The getter, without the rounding. -/
theorem Within.getActiveRecordingDuration (h : s.Within start now) :
    s.getActiveRecordingDuration now = some (asSecs (s.activeNanos start now)) := by
  rw [h.runs.getActiveRecordingDuration, activeNanos]
  have htotal := h.total
  cases hpaused : s.pauseStart with
  | none =>
    rw [hpaused, Option.getD_none] at htotal
    rw [pausedTime, Nat.add_zero, asSecs_sub (by omega), Option.getD_none]
  | some since =>
    have hsince := h.paused since hpaused
    rw [hpaused, Option.getD_some] at htotal
    rw [pausedTime, asSecs_sub (by omega), Option.getD_some]
    congr 2
    omega

/-- A call keeps the bounds, and does not change what was active until then. -/
theorem Within.toggle (h : s.Within start last) (hle : last ≤ call.time) :
    (s.toggle call).Within start call.time ∧
      (s.toggle call).activeNanos start call.time = s.activeNanos start call.time := by
  have htotal := h.total
  cases hpaused : s.pauseStart with
  | none =>
    rw [hpaused, Option.getD_none] at htotal
    have hruns := hpaused ▸ h.runs
    cases call with
    | pause now =>
      obtain ⟨hruns', htotal'⟩ := hruns.pause now
      simp only [Toggle.time] at hle
      refine ⟨⟨hruns'.pauseStart.symm ▸ hruns', ?_, ?_⟩, ?_⟩
      · rw [hruns'.pauseStart, htotal', Option.getD_some]
        omega
      · intro since hsince
        rw [hruns'.pauseStart] at hsince
        exact (Option.some.inj hsince).ge
      · rw [activeNanos, activeNanos, hruns'.pauseStart, htotal', hpaused]
        rfl
    | resume now =>
      rw [hruns.resume_unpaused]
      exact ⟨h.later hle, rfl⟩
  | some since =>
    have hsince := h.paused since hpaused
    rw [hpaused, Option.getD_some] at htotal
    have hruns := hpaused ▸ h.runs
    cases call with
    | pause now =>
      rw [hruns.pause_paused]
      exact ⟨h.later hle, rfl⟩
    | resume now =>
      obtain ⟨hruns', htotal'⟩ := hruns.resume now
      simp only [Toggle.time] at hle
      refine ⟨⟨hruns'.pauseStart.symm ▸ hruns', ?_, ?_⟩, ?_⟩
      · rw [hruns'.pauseStart, htotal', Option.getD_none, Toggle.time]
        omega
      · intro since' hsince'
        rw [hruns'.pauseStart] at hsince'
        cases hsince'
      · rw [activeNanos, activeNanos, hruns'.pauseStart, htotal', hpaused, Option.getD_none,
          Option.getD_some, Toggle.time]
        omega

theorem activeNanos_mono (h : now ≤ now') (s : RecordingClock) (start : ℕ) :
    s.activeNanos start now ≤ s.activeNanos start now' := by
  rw [activeNanos, activeNanos]
  cases s.pauseStart with
  | none =>
    rw [Option.getD_none, Option.getD_none]
    omega
  | some since => exact le_refl _

/-- Calls in order keep the bounds, and what was active before them stays. -/
theorem Within.run (h : s.Within start last) (hordered : (toggles.map Toggle.time).Pairwise (· ≤ ·))
    (hbounds : ∀ call ∈ toggles, last ≤ call.time ∧ call.time ≤ now) (hle : last ≤ now) :
    (s.run toggles).Within start now ∧
      s.activeNanos start last ≤ (s.run toggles).activeNanos start now := by
  induction toggles generalizing s last with
  | nil => exact ⟨h.later hle, activeNanos_mono hle s start⟩
  | cons call toggles ih =>
    obtain ⟨hfirst, hrest⟩ := List.pairwise_cons.mp hordered
    obtain ⟨hcall, hnow⟩ := hbounds call List.mem_cons_self
    obtain ⟨hwithin, hactive⟩ := h.toggle hcall
    have hbounds' : ∀ other ∈ toggles, call.time ≤ other.time ∧ other.time ≤ now :=
      fun other hother => ⟨hfirst _ (List.mem_map_of_mem hother),
        (hbounds other (List.mem_cons_of_mem _ hother)).2⟩
    obtain ⟨hwithin', hactive'⟩ := ih hwithin hrest hbounds' hnow
    refine ⟨hwithin', le_trans ?_ hactive'⟩
    rw [hactive]
    exact activeNanos_mono hcall s start

/-! ## Traces -/

/-- The calls are made in the order of their times. -/
def Ordered (calls : List Call) : Prop := (calls.map Call.time).Pairwise (· ≤ ·)

/-- The calls are made by `now`. -/
def Until (calls : List Call) (now : ℕ) : Prop := ∀ call ∈ calls, call.time ≤ now

theorem execAll_concat (s : RecordingClock) (calls : List Call) (call : Call) :
    s.execAll (calls ++ [call]) = (s.execAll calls).exec call := by
  rw [execAll, List.foldl_append]
  rfl

theorem sinceStart_concat_start (calls : List Call) (now : ℕ) :
    sinceStart (calls ++ [.start now]) = some (now, []) := by
  rw [sinceStart, List.foldl_append]
  rfl

theorem sinceStart_concat_toggle (calls : List Call) (call : Toggle) :
    sinceStart (calls ++ [.toggle call]) =
      (sinceStart calls).map fun (start, toggles) => (start, toggles ++ [call]) := by
  rw [sinceStart, List.foldl_append]
  rfl

theorem execAll_toggles (s : RecordingClock) (calls : List Call) (toggles : List Toggle) :
    s.execAll (calls ++ toggles.map .toggle) = (s.execAll calls).run toggles := by
  rw [execAll, List.foldl_append, List.foldl_map]
  rfl

theorem startsFresh_concat (s : RecordingClock) (calls : List Call) (call : Call) :
    StartsFresh s (calls ++ [call]) ↔ StartsFresh s calls ∧ ∀ now, call = .start now →
      (s.execAll calls).isPaused = false ∧ (s.execAll calls).totalPauseDuration = 0 := by
  induction calls generalizing s with
  | nil => simp [StartsFresh, execAll]
  | cons first calls ih =>
    rw [List.cons_append, StartsFresh, ih, StartsFresh, and_assoc]
    rfl

/-- What is known of the state after calls: nothing was started, or what was runs. -/
inductive Traced (calls : List Call) : Prop where
  /-- before a start, everything fails -/
  | idle (since : sinceStart calls = none) (state : new.execAll calls = new) : Traced calls
  /-- a start that found no paused time -/
  | runs (start : ℕ) (toggles : List Toggle) (base : RecordingClock)
      (since : sinceStart calls = some (start, toggles)) (begun : base.Within start start)
      (total : base.totalPauseDuration = 0) (unpaused : base.pauseStart = none)
      (state : new.execAll calls = base.run toggles)
      (within : ∀ now, Until calls now → (new.execAll calls).Within start now) : Traced calls

theorem within_startRecording (start : ℕ) {base : RecordingClock}
    (hpaused : base.isPaused = false)
    (hstart : base.pauseStart = none) (htotal : base.totalPauseDuration = 0) :
    (base.startRecording start).Within start start := by
  refine ⟨⟨rfl, rfl, ?_, rfl⟩, ?_, fun since hsince => ?_⟩
  · change base.isPaused = base.pauseStart.isSome
    rw [hpaused, hstart]
    rfl
  · change start + base.totalPauseDuration ≤ base.pauseStart.getD start
    rw [htotal, hstart]
    exact le_refl _
  · change base.pauseStart = some since at hsince
    rw [hstart] at hsince
    cases hsince

theorem traced (hordered : Ordered calls) (hfresh : StartsFresh new calls) : Traced calls := by
  induction calls using List.reverseRecOn with
  | nil => exact .idle rfl rfl
  | append_singleton calls call ih =>
    rw [Ordered, List.map_append, List.pairwise_append] at hordered
    obtain ⟨hfresh, hcall⟩ := (startsFresh_concat new calls call).mp hfresh
    have hlast : ∀ other ∈ calls, other.time ≤ call.time := fun other hother =>
      hordered.2.2 _ (List.mem_map_of_mem hother) _ (by simp)
    have htraced := ih hordered.1 hfresh
    cases call with
    | start at' =>
      obtain ⟨hpaused, htotal⟩ := hcall at' rfl
      have hunpaused : (new.execAll calls).pauseStart = none := by
        cases htraced with
        | idle _ hstate => rw [hstate]; rfl
        | runs start toggles base _ _ _ _ _ hwithin =>
          have hruns := (hwithin at' hlast).runs
          have hnone := hruns.isPaused
          rw [hpaused] at hnone
          exact Option.isSome_eq_false_iff.mp hnone.symm |> Option.isNone_iff_eq_none.mp
      have hbegun := within_startRecording at' hpaused hunpaused htotal
      refine .runs at' [] _ (sinceStart_concat_start calls at') hbegun htotal hunpaused ?_
        fun now hnow => ?_
      · rw [execAll_concat]
        rfl
      · rw [execAll_concat]
        exact hbegun.later (hnow (.start at') (by simp))
    | toggle toggle =>
      cases htraced with
      | idle hnone hstate =>
        refine .idle (by rw [sinceStart_concat_toggle, hnone]; rfl) ?_
        rw [execAll_concat, hstate]
        cases toggle <;> rfl
      | runs start toggles base hsome hbegun htotal hunpaused hstate hwithin =>
        refine .runs start (toggles ++ [toggle]) base (by rw [sinceStart_concat_toggle, hsome]; rfl)
          hbegun htotal hunpaused ?_ fun now hnow => ?_
        · rw [execAll_concat, hstate, run, run, List.foldl_append]
          rfl
        · rw [execAll_concat]
          have hbound : toggle.time ≤ now := hnow (.toggle toggle) (by simp)
          exact ((hwithin toggle.time hlast).toggle le_rfl).1.later hbound

/-- The active duration over a trace. -/
structure ActiveLaw (calls : List Call) : Prop where
  /-- it is the time since the last start without the pauses, with the one under way -/
  value : ∀ now, Until calls now → (new.execAll calls).getActiveRecordingDuration now =
    (sinceStart calls).map fun (start, toggles) => activeTime start now toggles
  /-- it is not negative -/
  nonneg : ∀ now v, Until calls now →
    (new.execAll calls).getActiveRecordingDuration now = some v → 0 ≤ v
  /-- it does not decrease, whatever is called before the next start -/
  mono : ∀ (toggles : List Toggle) (now now' : ℕ) (v v' : ℚ),
    Ordered (calls ++ toggles.map .toggle) → Until calls now →
    (∀ call ∈ toggles, now ≤ call.time ∧ call.time ≤ now') → now ≤ now' →
      (new.execAll calls).getActiveRecordingDuration now = some v →
        (new.execAll (calls ++ toggles.map .toggle)).getActiveRecordingDuration now' = some v' →
          v ≤ v'
  /-- it stands still while the recording is paused -/
  paused : (new.execAll calls).isPaused = true → ∀ now now', Until calls now → Until calls now' →
    (new.execAll calls).getActiveRecordingDuration now =
      (new.execAll calls).getActiveRecordingDuration now'
  /-- a rejected call changes nothing -/
  rejected : ∀ call, (new.execAll calls).Rejects call →
    new.execAll (calls ++ [.toggle call]) = new.execAll calls

theorem toggle_of_rejects (h : s.Rejects call) : s.toggle call = s := by
  cases call with
  | pause now =>
    rw [Rejects] at h
    rw [RecordingClock.toggle, h, Option.getD_none]
  | resume now =>
    rw [Rejects] at h
    rw [RecordingClock.toggle, h, Option.getD_none]

/-- **The active duration.** In a trace in which every start finds no paused time, the getter is
right without the rounding. -/
theorem activeLaw_of_startsFresh (hordered : Ordered calls) (hfresh : StartsFresh new calls) :
    ActiveLaw calls := by
  have hrejected : ∀ call, (new.execAll calls).Rejects call →
      new.execAll (calls ++ [.toggle call]) = new.execAll calls := by
    intro call hrejects
    rw [execAll_concat]
    exact toggle_of_rejects hrejects
  cases traced hordered hfresh with
  | idle hsince hstate =>
    have hnone : ∀ now, (new.execAll calls).getActiveRecordingDuration now = none := by
      intro now
      rw [hstate]
      rfl
    refine ⟨fun now _ => by rw [hnone, hsince]; rfl, fun now v _ hv => ?_,
      fun _ now _ v _ _ _ _ _ hv => ?_, fun _ now now' _ _ => by rw [hnone, hnone], hrejected⟩
    · rw [hnone] at hv
      cases hv
    · rw [hnone] at hv
      cases hv
  | runs start toggles base hsince hbegun htotal hunpaused hstate hwithin =>
    have hget : ∀ now, Until calls now → (new.execAll calls).getActiveRecordingDuration now =
        some (asSecs ((new.execAll calls).activeNanos start now)) :=
      fun now hnow => (hwithin now hnow).getActiveRecordingDuration
    refine ⟨fun now _ => ?_, fun now v hnow hv => ?_, ?_, fun hpaused now now' hnow hnow' => ?_,
      hrejected⟩
    · have hruns := hunpaused ▸ hbegun.runs
      rw [hsince, hstate, hruns.getActiveRecordingDuration_run, htotal, Nat.zero_add]
      rfl
    · rw [hget now hnow] at hv
      rw [← Option.some.inj hv]
      exact div_nonneg (Nat.cast_nonneg _) (by norm_num)
    · intro later now now' v v' hordered' hnow hbounds hle hv hv'
      rw [Ordered, List.map_append, List.map_map, List.pairwise_append] at hordered'
      obtain ⟨hwithin', hactive⟩ := (hwithin now hnow).run hordered'.2.1 hbounds hle
      rw [hget now hnow] at hv
      rw [execAll_toggles, hwithin'.getActiveRecordingDuration] at hv'
      rw [← Option.some.inj hv, ← Option.some.inj hv']
      exact asSecs_mono hactive
    · rw [hget now hnow, hget now' hnow']
      have hsome := (hwithin now hnow).runs.isPaused
      rw [hpaused] at hsome
      obtain ⟨since, hsince⟩ := Option.isSome_iff_exists.mp hsome.symm
      rw [activeNanos, activeNanos, hsince]
      rfl

/-- A recording of three seconds that is paused for the second of them. -/
theorem activeLaw_oneSecond :
    ActiveLaw [.start 0, .toggle (.pause 1000000000), .toggle (.resume 2000000000)] := by
  refine activeLaw_of_startsFresh (by simp [Ordered, Call.time, Toggle.time]) ?_
  simp [StartsFresh, new, RecordingState.new]

/-- A second start keeps the second in which the recording was paused before, so that its duration is
negative at first; and the rounding of three durations can leave less than zero, even where a
recording was started once. -/
theorem not_activeLaw_restarted :
    (¬∀ calls, Ordered calls → ActiveLaw calls) ∧
      (new.execAll [.start 0, .toggle (.pause 0), .toggle (.resume 100000000),
        .toggle (.pause 100000000)]).getActiveRecordingSeconds 300000000 = some (0.3 - 0.1 - 0.2) ∧
      (0.3 - 0.1 - 0.2 : Float) < 0 := by
  refine ⟨fun h => ?_, by decide +kernel, by decide +kernel⟩
  have hlaw := h [.start 0, .toggle (.pause 1000000000), .toggle (.resume 2000000000),
    .start 3000000000] (by simp [Ordered, Call.time, Toggle.time])
  have hnegative := hlaw.nonneg 3000000000 (-1) (by simp [Until, Call.time, Toggle.time])
    (by decide +kernel)
  norm_num at hnegative

end RecordingClock

end MeetilyLocal
