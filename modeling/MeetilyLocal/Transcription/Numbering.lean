import MeetilyLocal.Library.Tickets
import MeetilyLocal.Transcription.InOrder

/-!
# The numbers of the lines

`SEQUENCE_COUNTER` is shared by the workers of all recordings. Whatever steps they take in between, no two
lines of the transcripts have the same number, and those of a recording have theirs in the order in which
they are published (`sequenceIds_of_run`).
-/

namespace MeetilyLocal

namespace Transcription

section

variable {T : Type}

/-- The number of a line. -/
def Outcome.number? : Outcome T → Option ℕ
  | .published number _ => some number
  | _ => none

/-- The line. -/
def Outcome.update? : Outcome T → Option (TranscriptUpdate T)
  | .published _ update => some update
  | _ => none

/-- The number that the worker holds. -/
def WorkerStage.number? : WorkerStage T → Option ℕ
  | .diarizing _ _ _ number => some number
  | _ => none

/-- The numbers that a session has got. -/
def Session.numbers (s : Session T) : List ℕ :=
  s.log.filterMap (fun entry => entry.2.number?) ++ s.worker.number?.toList

/-- The lines of a session. -/
def Session.updates (s : Session T) : List (TranscriptUpdate T) :=
  s.log.filterMap fun entry => entry.2.update?

/-- The line that an event shows. -/
def WorkerEvent.update? : WorkerEvent T → Option (TranscriptUpdate T)
  | .transcriptUpdate update => some update
  | _ => none

/-- The lines of a session that the user interface is shown. -/
def Backlog.shown (b : Backlog T) (k : ℕ) : List (TranscriptUpdate T) :=
  (b.events.filter fun event => event.1 = k).filterMap fun event => event.2.update?

theorem update?_of_isTrouble {event : WorkerEvent T} (h : event.isTrouble = true) :
    event.update? = none := by
  cases event <;> simp_all [WorkerEvent.isTrouble, WorkerEvent.update?]

theorem shown_append (b : Backlog T) (k j : ℕ) (events : List (WorkerEvent T)) :
    Backlog.shown { b with events := b.events ++ events.map fun event => (k, event) } j =
      b.shown j ++ if k = j then events.filterMap WorkerEvent.update? else [] := by
  simp only [Backlog.shown, List.filter_append, List.filterMap_append, List.filter_map]
  congr 1
  by_cases hjk : k = j <;> simp [hjk, Function.comp_def, List.filterMap_map]

/-- What the sessions have of something, after one of them has changed. -/
theorem apply_update {α : Type} (f : Session T → α) (sessions : ℕ → Session T) (k : ℕ) (s : Session T) :
    (fun j => f (Function.update sessions k s j)) =
      Function.update (fun j => f (sessions j)) k (f s) := by
  funext j
  exact Function.apply_update (fun _ => f) sessions k s j

end

variable {T : Type} [Instant T] [LE T] [LT T] [DecidableLE T] [DecidableLT T] [OfScientific T]
  {ctx : WorkerContext} {c c' : Counters} {s s' : Session T} {events : List (WorkerEvent T)}
  {b b' : Backlog T} {label : Label T} {labels : List (Label T)}

theorem numbers_moves (hmove : Moves ctx c s c' s' events) :
    (c'.sequenceCounter = c.sequenceCounter ∧ s'.numbers <+: s.numbers) ∨
      c'.sequenceCounter = c.sequenceCounter + 1 ∧ s'.numbers = s.numbers ++ [c.sequenceCounter] := by
  cases hmove <;>
    simp_all [Session.numbers, Session.settle, Session.dropReceiver, Outcome.number?, WorkerStage.number?]

/-- What is published is shown. -/
theorem updates_moves (hmove : Moves ctx c s c' s' events) :
    s'.updates = s.updates ++ events.filterMap WorkerEvent.update? := by
  cases hmove
  case dropped hnumbering hdropped htrouble =>
    have hnone : events.filterMap WorkerEvent.update? = [] :=
      List.filterMap_eq_nil_iff.mpr fun event hevent => update?_of_isTrouble (htrouble event hevent)
    simp [hnone, Session.updates, Session.dropReceiver]
  case fails piece samples e hworker htrouble =>
    have hnone : events.filterMap WorkerEvent.update? = [] :=
      List.filterMap_eq_nil_iff.mpr fun event hevent => update?_of_isTrouble (htrouble event hevent)
    simp [hnone, Session.updates, Session.settle, Outcome.update?]
  case hears piece samples heard hworker hspeech hcheck =>
    split <;> simp [Session.updates, WorkerEvent.update?]
  all_goals simp [Session.updates, Session.settle, Outcome.update?, WorkerEvent.update?]

/-- A line has the number it was given, as a `u64`. -/
def Session.Labelled (s : Session T) : Prop :=
  ∀ entry ∈ s.log, entry.2.update?.map TranscriptUpdate.sequenceId = entry.2.number?.map UInt64.ofNat

theorem labelled_moves (hmove : Moves ctx c s c' s' events) (h : s.Labelled) : s'.Labelled := by
  have hsettle : ∀ (s : Session T) piece outcome, s.Labelled →
      outcome.update?.map TranscriptUpdate.sequenceId = outcome.number?.map UInt64.ofNat →
      (s.settle piece outcome).Labelled := by
    intro s piece outcome hs houtcome entry hentry
    obtain hold | hnew := List.mem_append.mp hentry
    · exact hs entry hold
    · obtain rfl := List.mem_singleton.mp hnew
      exact houtcome
  cases hmove
  case skips hworker => exact hsettle _ _ _ h rfl
  case fails hworker htrouble => exact hsettle _ _ _ h rfl
  case filters hworker hspeech => exact hsettle _ _ _ h rfl
  case echoes hworker hspeech hcheck => exact hsettle _ _ _ h rfl
  case publishes env hworker => exact hsettle _ _ _ h rfl
  all_goals exact h

/-! ## Runs -/

/-- How the numbers are given out. -/
structure Numbered (b : Backlog T) : Prop where
  /-- there are no other sessions -/
  absent : b.Absent
  /-- each is that of one session -/
  tickets : Tickets b.counters.sequenceCounter fun k => (b.sessions k).numbers
  /-- what a session publishes is shown -/
  shown : ∀ k, b.shown k = (b.sessions k).updates

theorem Numbered.next (hnext : b.next ctx label = some b') (h : Numbered b) : Numbered b' := by
  have habsent := absent_next hnext h.absent
  obtain ⟨-, rfl⟩ | ⟨-, rfl⟩ | ⟨k, action, c, s, events, -, hmove, rfl⟩ := Backlog.next_cases hnext
  · have hnone := h.absent b.started le_rfl
    have hnumbers : (Session.fresh : Session T).numbers = (b.sessions b.started).numbers := by
      rw [hnone]
      rfl
    have hupdates : (Session.fresh : Session T).updates = (b.sessions b.started).updates := by
      rw [hnone]
      rfl
    refine ⟨habsent, ?_, fun k => ?_⟩
    · simp only [apply_update Session.numbers, hnumbers, Function.update_eq_self]
      exact h.tickets
    · have hsame := congrFun (apply_update Session.updates b.sessions b.started .fresh) k
      simp only [hupdates, Function.update_eq_self] at hsame
      exact (h.shown k).trans hsame.symm
  · exact ⟨habsent, h.tickets, h.shown⟩
  · refine ⟨habsent, ?_, fun j => ?_⟩
    · simp only [apply_update Session.numbers]
      obtain ⟨hcounter, hkept⟩ | ⟨hcounter, htaken⟩ := numbers_moves hmove
      · rw [hcounter]
        exact h.tickets.forget hkept
      · rw [hcounter, htaken]
        exact h.tickets.take k
    · refine (shown_append b k j events).trans ?_
      obtain rfl | hne := eq_or_ne k j
      · simp only [if_true, Function.update_self, updates_moves hmove, h.shown k]
      · simp only [if_neg hne, List.append_nil, Function.update_of_ne hne.symm, h.shown j]

theorem numbered_of_run (h : Backlog.initial.runAll ctx labels = some b) : Numbered b :=
  Backlog.runAll_induct h (fun _ _ _ _ hnext h => h.next hnext)
    ⟨fun _ _ => rfl, Tickets.none 0, fun _ => rfl⟩

theorem labelled_of_run (h : Backlog.initial.runAll ctx labels = some b) (k : ℕ) :
    (b.sessions k).Labelled :=
  Backlog.sessions_induct h (by simp [Session.Labelled, Session.fresh])
    (fun _ _ _ _ _ hmove h => labelled_moves hmove h)
    (fun _ => by simp [Session.Labelled, Backlog.initial, Session.absent]) k

/-! ## As numbers of 64 bits -/

omit [Instant T] [LE T] [LT T] [DecidableLE T] [DecidableLT T] [OfScientific T] in
/-- The numbers that a session has published. -/
theorem sequenceIds_of_labelled (h : s.Labelled) :
    s.updates.map TranscriptUpdate.sequenceId =
      (s.log.filterMap fun entry => entry.2.number?).map UInt64.ofNat := by
  rw [Session.updates, List.map_filterMap, List.map_filterMap]
  exact List.filterMap_congr h

theorem ofNat_lt_ofNat {m n : ℕ} (hm : m < 2 ^ 64) (hn : n < 2 ^ 64) :
    UInt64.ofNat m < UInt64.ofNat n ↔ m < n := by
  rw [UInt64.lt_iff_toNat_lt, UInt64.toNat_ofNat_of_lt' hm, UInt64.toNat_ofNat_of_lt' hn]

/-- **No two lines have the same number**, of whatever recordings they are, and a recording shows its lines
in the order of their numbers, as long as the counter has not overflowed. -/
theorem sequenceIds_of_run (ctx : WorkerContext) (labels : List (Label T)) (b : Backlog T)
    (h : Backlog.initial.runAll ctx labels = some b)
    (hcounter : b.counters.sequenceCounter ≤ 2 ^ 64) :
    (∀ k, ((b.shown k).map TranscriptUpdate.sequenceId).Pairwise (· < ·)) ∧
      ∀ j k, j ≠ k → ∀ u ∈ b.shown j, ∀ v ∈ b.shown k, u.sequenceId ≠ v.sequenceId := by
  obtain ⟨-, htickets, hshown⟩ := numbered_of_run h
  have hids : ∀ k, (b.shown k).map TranscriptUpdate.sequenceId =
      ((b.sessions k).log.filterMap fun entry => entry.2.number?).map UInt64.ofNat := fun k => by
    rw [hshown, sequenceIds_of_labelled (labelled_of_run h k)]
  have hsub : ∀ k, ((b.sessions k).log.filterMap fun entry => entry.2.number?).Sublist
      (b.sessions k).numbers := fun k => List.sublist_append_left _ _
  have hlt : ∀ k, ∀ n ∈ (b.sessions k).log.filterMap (fun entry => entry.2.number?), n < 2 ^ 64 :=
    fun k n hn => (htickets.below k n ((hsub k).subset hn)).trans_le hcounter
  constructor
  · intro k
    rw [hids, List.pairwise_map]
    refine ((htickets.increasing k).sublist (hsub k)).imp_of_mem fun hm hn hmn => ?_
    exact (ofNat_lt_ofNat (hlt k _ hm) (hlt k _ hn)).mpr hmn
  · intro j k hjk u hu v hv heq
    have hu' := List.mem_map_of_mem (f := TranscriptUpdate.sequenceId) hu
    have hv' := List.mem_map_of_mem (f := TranscriptUpdate.sequenceId) hv
    rw [hids] at hu' hv'
    obtain ⟨m, hm, hum⟩ := List.mem_map.mp hu'
    obtain ⟨n, hn, hvn⟩ := List.mem_map.mp hv'
    have hmn : m = n := by
      have hof : UInt64.ofNat m = UInt64.ofNat n := by rw [hum, hvn, heq]
      simpa [UInt64.toNat_ofNat_of_lt' (hlt j m hm), UInt64.toNat_ofNat_of_lt' (hlt k n hn)] using
        congrArg UInt64.toNat hof
    exact htickets.apart j k hjk m ((hsub j).subset hm) (hmn ▸ (hsub k).subset hn)

/-- A recording of which a line has got its number, and is not published. -/
def numberedLine (k : ℕ) : List (Label ℚ) :=
  [.act k .spawn, .act k (.work hearsSpeech),
    .act k (.send ⟨[0.5, 0.25], 16000, 0, 1, .microphone⟩), .act k .forward, .act k .forward] ++
  List.replicate 6 (.act k (.work hearsSpeech))

/-- Two of them, which publish their lines in the order in which these did not get their numbers. -/
def twoRecordings : List (Label ℚ) :=
  [.start, .start] ++ numberedLine 0 ++ numberedLine 1 ++
    [.act 1 (.work hearsSpeech), .act 0 (.work hearsSpeech)]

theorem sequenceIds_of_run_twoRecordings :
    ∃ b, Backlog.initial.runAll plainContext twoRecordings = some b ∧
      (b.shown 0).map TranscriptUpdate.sequenceId = [0] ∧
      (b.shown 1).map TranscriptUpdate.sequenceId = [1] ∧
      ∀ j k, j ≠ k → ∀ u ∈ b.shown j, ∀ v ∈ b.shown k, u.sequenceId ≠ v.sequenceId := by
  have hrun : (Backlog.initial.runAll plainContext twoRecordings).map (fun b =>
      ((b.shown 0).map TranscriptUpdate.sequenceId, (b.shown 1).map TranscriptUpdate.sequenceId,
        b.counters.sequenceCounter)) = some ([0], [1], 2) := by decide +kernel
  obtain ⟨b, hb, hmap⟩ := Option.map_eq_some_iff.mp hrun
  obtain ⟨hzero, hone, hcounter⟩ : _ ∧ _ ∧ _ := by simpa only [Prod.mk.injEq] using hmap
  exact ⟨b, hb, hzero, hone,
    (sequenceIds_of_run plainContext twoRecordings b hb (by rw [hcounter]; norm_num)).2⟩

end Transcription

end MeetilyLocal
