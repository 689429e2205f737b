import MeetilyLocal.Library.Tasks
import MeetilyLocal.Recording.RecordingPhase

/-!
# Snapshots of the recording phase

Calls of `set_phase` (`audio/recording_phase.rs`) from several tasks. Each call applies its phase
under the lock of `PHASE_STATE`, takes the lock again to build the snapshot, and emits that; other
tasks run in between. `set_meeting_info` and `set_error_message` take the lock once.

A snapshot always carries the phase that the call with its `seq` installed. But two snapshots have
the same `seq` if one call applies its phase between the two lock sections of another; without that
all are different (`PhaseSnapshots.totallyOrdered_of_reaches`).
-/

namespace MeetilyLocal

/-- Snapshot of the canonical recording state; `Live` is what the caller of `set_phase` adds to it,
the durations and the queue depth. -/
structure RecordingSnapshot (Meeting Live : Type) : Type where
  /-- the phase -/
  phase : RecordingPhase
  /-- when the session entered the recording phase -/
  startedAtMs : Option ℕ
  /-- what the caller adds -/
  live : Live
  /-- name, folder and row of the meeting -/
  meeting : Option Meeting
  /-- the last fatal error's message -/
  error : Option String
  /-- tells which of two snapshots is newer -/
  seq : ℕ
  deriving DecidableEq

/-- `build_snapshot` -/
def PhaseState.buildSnapshot {Meeting Live : Type} (live : Live) (state : PhaseState Meeting) :
    RecordingSnapshot Meeting Live :=
  ⟨state.phase, state.startedAtMs, live, state.meeting, state.error, state.seq⟩

namespace PhaseSnapshots

/-- What the tasks share, and what a reader of the events sees. -/
structure Emission (Meeting Live : Type) : Type where
  /-- `PHASE_STATE` and `SEQ` -/
  state : PhaseState Meeting
  /-- the phases that `apply` has installed, in order -/
  installed : List RecordingPhase
  /-- the snapshots that `set_phase` has built, in order -/
  built : List (RecordingSnapshot Meeting Live)
  /-- the `recording-state` events -/
  emitted : List (RecordingSnapshot Meeting Live)

/-- Where a call of `set_phase` is. -/
inductive SetPhase (Meeting Live : Type) : Type where
  /-- a call that does not exist -/
  | free : SetPhase Meeting Live
  /-- before `apply` -/
  | apply : RecordingPhase → Live → SetPhase Meeting Live
  /-- before `build_snapshot` -/
  | buildSnapshot : Live → SetPhase Meeting Live
  /-- before `emit_event` -/
  | emit : RecordingSnapshot Meeting Live → SetPhase Meeting Live
  /-- it has returned -/
  | finished : SetPhase Meeting Live

/-- The calls from outside. -/
inductive PhaseCall (Meeting Live : Type) : Type where
  /-- `set_phase` -/
  | setPhase : RecordingPhase → Live → PhaseCall Meeting Live
  /-- `set_meeting_info` -/
  | setMeetingInfo : Option Meeting → PhaseCall Meeting Live
  /-- `set_error_message` -/
  | setErrorMessage : Option String → PhaseCall Meeting Live

/-- What the outside decides at a step. -/
structure PhaseEnv : Type where
  /-- Unix time in milliseconds -/
  now : ℕ
  /-- the event is emitted -/
  ok : Bool

variable {Meeting Live : Type}

/-- How a call from outside begins. -/
def begins : PhaseCall Meeting Live → Emission Meeting Live →
    Option (Emission Meeting Live × SetPhase Meeting Live)
  | .setPhase phase live, s => some (s, .apply phase live)
  | .setMeetingInfo meeting, s => some ({ s with state := s.state.setMeetingInfo meeting }, .finished)
  | .setErrorMessage error, s => some ({ s with state := s.state.setErrorMessage error }, .finished)

/-- `set_phase` -/
def step (env : PhaseEnv) (s : Emission Meeting Live) :
    SetPhase Meeting Live → Option (Tasks.Move (Emission Meeting Live) (SetPhase Meeting Live))
  | .free => none
  | .apply phase live =>
    some ⟨{ s with state := s.state.apply env.now phase, installed := s.installed ++ [phase] },
      .buildSnapshot live, none⟩
  | .buildSnapshot live =>
    let snapshot := s.state.buildSnapshot live
    some ⟨{ s with built := s.built ++ [snapshot] }, .emit snapshot, none⟩
  | .emit snapshot =>
    some ⟨{ s with emitted := if env.ok then s.emitted ++ [snapshot] else s.emitted },
      .finished, none⟩
  | .finished => none

/-- The program that tasks run which call `set_phase`. -/
def program : Tasks.Program (Emission Meeting Live) (SetPhase Meeting Live) PhaseEnv
    (PhaseCall Meeting Live) where
  isFree task := match task with | .free => true | _ => false
  begins := begins
  step := step

/-- The configuration at program start. -/
def start : Tasks.Config (Emission Meeting Live) (SetPhase Meeting Live) :=
  ⟨⟨.initial, [], [], []⟩, fun _ => .free⟩

/-- The emitted snapshots carry pairwise different `seq` values, and the one with the `n`-th `seq`
carries the phase that the `n`-th `apply` installed. -/
structure TotallyOrdered (s : Emission Meeting Live) : Prop where
  /-- no `seq` comes twice -/
  distinct : s.emitted.Pairwise fun a b => a.seq ≠ b.seq
  /-- the phase is that of the `seq` -/
  faithful : ∀ snapshot ∈ s.emitted,
    ∃ n, snapshot.seq = n + 1 ∧ s.installed[n]? = some snapshot.phase

/-! ## What a snapshot carries -/

/-- A snapshot carries the phase that the `apply` with its `seq` installed. -/
def Carries (installed : List RecordingPhase) (snapshot : RecordingSnapshot Meeting Live) : Prop :=
  ∃ n, snapshot.seq = n + 1 ∧ installed[n]? = some snapshot.phase

theorem Carries.append {installed : List RecordingPhase}
    {snapshot : RecordingSnapshot Meeting Live} (h : Carries installed snapshot)
    (more : List RecordingPhase) : Carries (installed ++ more) snapshot := by
  obtain ⟨n, hseq, hphase⟩ := h
  refine ⟨n, hseq, ?_⟩
  rw [List.getElem?_append_left (List.getElem?_eq_some_iff.mp hphase).1, hphase]

theorem Carries.seq_le {installed : List RecordingPhase}
    {snapshot : RecordingSnapshot Meeting Live} (h : Carries installed snapshot) :
    snapshot.seq ≤ installed.length := by
  obtain ⟨n, hseq, hphase⟩ := h
  exact hseq ▸ (List.getElem?_eq_some_iff.mp hphase).1

/-- What the state has to do with the phases that were installed. -/
structure Counted (s : Emission Meeting Live) : Prop where
  /-- `SEQ` counts the calls of `apply` -/
  seq : s.state.seq = s.installed.length
  /-- the phase is that of the last one -/
  phase : s.installed ≠ [] → s.installed.getLast? = some s.state.phase
  /-- each snapshot carries the phase of its `seq` -/
  built : ∀ snapshot ∈ s.built, Carries s.installed snapshot
  /-- what is emitted was built -/
  emitted : ∀ snapshot ∈ s.emitted, snapshot ∈ s.built

/-- What is counted, and where the tasks are. -/
def counted : Tasks.Assertions (Emission Meeting Live) (SetPhase Meeting Live) where
  shared := Counted
  own s a :=
    match a with
    | .buildSnapshot _ => s.installed ≠ []
    | .emit snapshot => snapshot ∈ s.built
    | _ => True
  pair _ _ := True

/-- The snapshot of a state whose phase was installed. -/
theorem Counted.carries {s : Emission Meeting Live} (h : Counted s) (live : Live)
    (hinstalled : s.installed ≠ []) : Carries s.installed (s.state.buildSnapshot live) := by
  obtain ⟨n, hn⟩ := Nat.exists_eq_succ_of_ne_zero
    (Nat.ne_of_gt (List.length_pos_iff.mpr hinstalled))
  have hlast : s.installed.getLast? = some s.state.phase := h.phase hinstalled
  rw [List.getLast?_eq_getElem?, hn] at hlast
  exact ⟨n, h.seq.trans hn, hlast⟩

theorem stable_counted {d : Tasks.Discipline (Emission Meeting Live) (SetPhase Meeting Live)
    PhaseEnv (PhaseCall Meeting Live)} : Tasks.Assertions.Stable .trivial counted program d where
  symm _ := trivial
  call {k s s' a} _ hs hbegins := by
    obtain ⟨-, h⟩ := hs
    cases k with
    | setPhase => cases hbegins; exact ⟨h, trivial⟩
    | setMeetingInfo => cases hbegins; exact ⟨⟨h.seq, h.phase, h.built, h.emitted⟩, trivial⟩
    | setErrorMessage => cases hbegins; exact ⟨⟨h.seq, h.phase, h.built, h.emitted⟩, trivial⟩
  callBeside {k s s' a b} _ _ _ hb hbegins := by
    obtain ⟨-, h⟩ := hb
    refine ⟨?_, trivial⟩
    cases k with
    | setPhase => cases hbegins; exact h
    | setMeetingInfo => cases hbegins; exact h
    | setErrorMessage => cases hbegins; exact h
  step {env s a move} htaken := by
    obtain ⟨-, ⟨-, h⟩, ⟨-, hown⟩, heq⟩ := htaken
    cases a with
    | free => cases heq
    | finished => cases heq
    | apply phase live =>
      cases heq
      refine ⟨⟨by simp [h.seq], by simp, ?_, h.emitted⟩, by simp [counted]⟩
      exact fun snapshot hmem => (h.built snapshot hmem).append [phase]
    | buildSnapshot live =>
      cases heq
      refine ⟨⟨h.seq, h.phase, fun snapshot hmem => ?_, fun snapshot hmem => ?_⟩, by simp [counted]⟩
      · rcases List.mem_append.mp hmem with hold | hnew
        · exact h.built snapshot hold
        · exact List.mem_singleton.mp hnew ▸ h.carries live hown
      · exact List.mem_append_left _ (h.emitted snapshot hmem)
    | emit snapshot =>
      cases heq
      refine ⟨⟨h.seq, h.phase, h.built, fun other hmem => ?_⟩, trivial⟩
      rcases hok : env.ok with _ | _
      · exact h.emitted other (by simpa [hok] using hmem)
      · have hor : other ∈ s.emitted ∨ other = snapshot := by simpa [hok] using hmem
        rcases hor with hold | rfl
        · exact h.emitted other hold
        · exact hown
  beside {env s a b move} hbeside := by
    obtain ⟨⟨-, -, -, heq⟩, -, ⟨-, hb⟩, -⟩ := hbeside
    refine ⟨?_, trivial⟩
    cases a with
    | free => cases heq
    | finished => cases heq
    | apply phase live =>
      cases heq
      cases b with
      | buildSnapshot => simp [counted]
      | emit => exact hb
      | _ => trivial
    | buildSnapshot live =>
      cases heq
      cases b with
      | buildSnapshot => exact hb
      | emit => exact List.mem_append_left _ hb
      | _ => trivial
    | emit snapshot => cases heq; exact hb
  spawn {env s a child move} htaken hspawned := by
    obtain ⟨-, -, -, heq⟩ := htaken
    cases a <;> cases heq <;> cases hspawned
  spawnBeside _ _ := trivial

/-- In every run, each snapshot carries the phase of its `seq`. -/
theorem hold_counted {d : Tasks.Discipline (Emission Meeting Live) (SetPhase Meeting Live)
    PhaseEnv (PhaseCall Meeting Live)} {c : Tasks.Config (Emission Meeting Live)
    (SetPhase Meeting Live)} (h : Tasks.Reaches program d start c) : counted.Hold c := by
  refine stable_counted.of_reaches (fun _ _ => Tasks.Assertions.hold_trivial) ?_ h
  refine ⟨⟨rfl, fun hne => absurd rfl hne, ?_, ?_⟩, fun _ => trivial, fun _ _ _ => trivial⟩
  · intro snapshot hmem
    cases hmem
  · intro snapshot hmem
    cases hmem

/-! ## When the snapshots are different -/

/-- The call is about to apply its phase. -/
def SetPhase.applies : SetPhase Meeting Live → Bool
  | .apply _ _ => true
  | _ => false

/-- The call is between `apply` and `build_snapshot`. -/
def SetPhase.builds : SetPhase Meeting Live → Bool
  | .buildSnapshot _ => true
  | _ => false

/-- The snapshot that the call is about to emit. -/
def SetPhase.emits : SetPhase Meeting Live → Option (RecordingSnapshot Meeting Live)
  | .emit snapshot => some snapshot
  | _ => none

/-- No call applies its phase while another one is between `apply` and `build_snapshot`. -/
def unbroken : Tasks.Discipline (Emission Meeting Live) (SetPhase Meeting Live) PhaseEnv
    (PhaseCall Meeting Live) where
  call _ _ := True
  callBeside _ _ := True
  step _ _ _ := True
  stepBeside _ _ a b := a.applies = true → b.builds = false

/-- The `seq` values of the emitted snapshots, and of those that will be, are different. -/
def separate : Tasks.Assertions (Emission Meeting Live) (SetPhase Meeting Live) where
  shared s := s.emitted.Pairwise fun a b => a.seq ≠ b.seq
  own s a :=
    (a.builds = true → ∀ snapshot ∈ s.built, snapshot.seq < s.state.seq) ∧
      ∀ mine, a.emits = some mine → ∀ snapshot ∈ s.emitted, snapshot.seq ≠ mine.seq
  pair a b :=
    (a.builds = true → b.builds = false) ∧
      ∀ mine other, a.emits = some mine → b.emits = some other → mine.seq ≠ other.seq

/-- Nothing is asserted of a call that is at neither point. -/
theorem separate_own {s : Emission Meeting Live} {a : SetPhase Meeting Live}
    (hbuilds : a.builds = false) (hemits : a.emits = none) : separate.own s a := by
  simp [separate, hbuilds, hemits]

/-- Nor beside others. -/
theorem separate_pair {a b : SetPhase Meeting Live} (hbuilds : a.builds = false)
    (hemits : a.emits = none) : separate.pair a b := by
  simp [separate, hbuilds, hemits]

theorem stable_separate :
    Tasks.Assertions.Stable
      (counted : Tasks.Assertions (Emission Meeting Live) (SetPhase Meeting Live)) separate program
      unbroken where
  symm {a b} h := by
    refine ⟨fun hb => ?_, fun mine other hmine hother => (h.2 other mine hother hmine).symm⟩
    rcases ha : a.builds with _ | _
    · rfl
    · rw [h.1 ha] at hb
      cases hb
  call {k s s' a} _ hs hbegins := by
    obtain ⟨-, h⟩ := hs
    cases k <;> cases hbegins <;> exact ⟨h, separate_own rfl rfl⟩
  callBeside {k s s' a b} _ _ _ hb hbegins := by
    obtain ⟨-, h⟩ := hb
    cases k <;> cases hbegins <;> exact ⟨⟨fun hb => h.1 hb, h.2⟩, separate_pair rfl rfl⟩
  step {env s a move} htaken := by
    obtain ⟨-, ⟨hcounted, h⟩, ⟨-, hown⟩, heq⟩ := htaken
    cases a with
    | free => cases heq
    | finished => cases heq
    | apply phase live =>
      cases heq
      refine ⟨h, fun _ snapshot hmem => ?_, by simp [SetPhase.emits]⟩
      -- the new number is past all that were given
      have hle : snapshot.seq ≤ s.installed.length := (hcounted.built snapshot hmem).seq_le
      exact Nat.lt_succ_of_le (hcounted.seq ▸ hle)
    | buildSnapshot live =>
      cases heq
      refine ⟨h, by simp [SetPhase.builds], fun mine hmine snapshot hmem => ?_⟩
      cases hmine
      exact Nat.ne_of_lt (hown.1 rfl snapshot (hcounted.emitted snapshot hmem))
    | emit snapshot =>
      cases heq
      refine ⟨?_, separate_own rfl rfl⟩
      rcases hok : env.ok with _ | _
      · simpa [hok] using h
      · simpa [separate, hok, List.pairwise_append] using ⟨h, hown.2 snapshot rfl⟩
  beside {env s a b move} hbeside := by
    obtain ⟨⟨-, ⟨hcounted, -⟩, ⟨-, hown⟩, heq⟩, hallowed, ⟨hcountedb, hb⟩, -, hpair⟩ := hbeside
    cases a with
    | free => cases heq
    | finished => cases heq
    | apply phase live =>
      cases heq
      have hbuilds : b.builds = false := hallowed rfl
      refine ⟨⟨fun hb' => ?_, hb.2⟩, fun _ => hbuilds, by simp [SetPhase.emits]⟩
      rw [hbuilds] at hb'
      cases hb'
    | buildSnapshot live =>
      cases heq
      have hbuilds : b.builds = false := hpair.1 rfl
      refine ⟨⟨fun hb' => ?_, hb.2⟩, by simp [SetPhase.builds], fun mine other hmine hother => ?_⟩
      · rw [hbuilds] at hb'
        cases hb'
      · -- what the other call will emit was built before
        cases hmine
        cases b <;> cases hother
        exact Nat.ne_of_gt (hown.1 rfl other hcountedb)
    | emit snapshot =>
      cases heq
      refine ⟨⟨hb.1, fun mine hmine other hmem => ?_⟩, separate_pair rfl rfl⟩
      rcases hok : env.ok with _ | _
      · exact hb.2 mine hmine other (by simpa [hok] using hmem)
      · have hor : other ∈ s.emitted ∨ other = snapshot := by simpa [hok] using hmem
        rcases hor with hold | rfl
        · exact hb.2 mine hmine other hold
        · exact hpair.2 other mine rfl hmine
  spawn {env s a child move} htaken hspawned := by
    obtain ⟨-, -, -, heq⟩ := htaken
    cases a <;> cases heq <;> cases hspawned
  spawnBeside {env s a b child move} hbeside hspawned := by
    obtain ⟨⟨-, -, -, heq⟩, -, -, -⟩ := hbeside
    cases a <;> cases heq <;> cases hspawned

/-- **Total order.** While no call applies its phase between the two lock sections of another one,
the snapshots are totally ordered by `seq`. -/
theorem totallyOrdered_of_reaches {c : Tasks.Config (Emission Meeting Live) (SetPhase Meeting Live)}
    (h : Tasks.Reaches program unbroken start c) : TotallyOrdered c.shared := by
  have hcounted : counted.Hold c := hold_counted h
  have hseparate : separate.Hold c := by
    refine stable_separate.of_reaches (fun _ => hold_counted) ?_ h
    exact ⟨List.Pairwise.nil, fun _ => separate_own rfl rfl, fun _ _ _ => separate_pair rfl rfl⟩
  refine ⟨hseparate.shared, fun snapshot hmem => ?_⟩
  exact hcounted.shared.built snapshot (hcounted.shared.emitted snapshot hmem)

/-! ### Runs of two calls -/

instance (k : PhaseCall Meeting Live) (s : Emission Meeting Live) :
    Decidable (unbroken.call k s) :=
  inferInstanceAs (Decidable True)

instance (k : PhaseCall Meeting Live) (b : SetPhase Meeting Live) :
    Decidable (unbroken.callBeside k b) :=
  inferInstanceAs (Decidable True)

instance (env : PhaseEnv) (s : Emission Meeting Live) (a : SetPhase Meeting Live) :
    Decidable (unbroken.step env s a) :=
  inferInstanceAs (Decidable True)

instance (env : PhaseEnv) (s : Emission Meeting Live) (a b : SetPhase Meeting Live) :
    Decidable (unbroken.stepBeside env s a b) :=
  inferInstanceAs (Decidable (a.applies = true → b.builds = false))

/-- Two calls begin; the first applies its phase and builds its snapshot before the second applies
its own, and emits it after that. -/
def oneAfterAnother : List (Tasks.Label PhaseEnv (PhaseCall String ℕ)) :=
  [.call 0 (.setPhase .starting 0), .call 1 (.setPhase .error 3), .run 0 ⟨1000, true⟩ 2,
    .run 0 ⟨1001, true⟩ 2, .run 1 ⟨1002, true⟩ 2, .run 0 ⟨1003, true⟩ 2, .run 1 ⟨1004, true⟩ 2,
    .run 1 ⟨1005, true⟩ 2]

/-- The second applies its phase before the first builds its snapshot. -/
def interleaved : List (Tasks.Label PhaseEnv (PhaseCall String ℕ)) :=
  [.call 0 (.setPhase .starting 0), .call 1 (.setPhase .error 3), .run 0 ⟨1000, true⟩ 2,
    .run 1 ⟨1001, true⟩ 2, .run 0 ⟨1002, true⟩ 2, .run 0 ⟨1003, true⟩ 2, .run 1 ⟨1004, true⟩ 2,
    .run 1 ⟨1005, true⟩ 2]

/-- Two snapshots in a run that obeys the condition. -/
theorem totallyOrdered_oneAfterAnother :
    ∃ c : Tasks.Config (Emission String ℕ) (SetPhase String ℕ),
      Tasks.Program.runBelow program unbroken 3 start oneAfterAnother = some c ∧
        c.shared.emitted.map (fun snapshot => (snapshot.phase, snapshot.seq)) =
          [(.starting, 1), (.error, 2)] ∧ TotallyOrdered c.shared :=
  ⟨_, rfl, rfl, totallyOrdered_of_reaches (Tasks.Reaches.of_runBelow (fun _ => trivial)
    (fun _ _ _ _ => rfl) (fun _ _ => rfl) .refl
    (show Tasks.Program.runBelow program unbroken 3 start oneAfterAnother = some _ from rfl))⟩

/-- In general they are not: both calls emit the second snapshot, and nobody the first. -/
theorem not_totallyOrdered_interleaved :
    ¬∀ c : Tasks.Config (Emission String ℕ) (SetPhase String ℕ),
      Tasks.Reaches program .free start c → TotallyOrdered c.shared := by
  intro h
  obtain ⟨c, hrun, hseqs⟩ : ∃ c : Tasks.Config (Emission String ℕ) (SetPhase String ℕ),
      program.runAll start interleaved = some c ∧
        c.shared.emitted.map (fun snapshot => snapshot.seq) = [2, 2] := ⟨_, rfl, rfl⟩
  have hordered : TotallyOrdered c.shared := h c (Tasks.Reaches.of_runAll .refl hrun)
  have hpairwise : (c.shared.emitted.map fun snapshot => snapshot.seq).Pairwise fun a b => a ≠ b :=
    List.pairwise_map.mpr hordered.distinct
  rw [hseqs] at hpairwise
  simp at hpairwise

end PhaseSnapshots

end MeetilyLocal
