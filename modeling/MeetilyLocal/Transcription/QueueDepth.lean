import MeetilyLocal.Transcription.InOrder
import Mathlib.Algebra.BigOperators.Group.Finset.Basic

/-!
# The transcription backlog

`QUEUE_DEPTH` is counted up by the forwarding tasks and down by the workers of all recordings, and set to 0
when one starts. It never shows more segments than wait for a worker, or did when theirs was aborted; if
nothing of an earlier recording is on its way when one starts, it shows exactly those from then on
(`queueDepth_of_run`).
-/

namespace MeetilyLocal

namespace Transcription

open Finset

section

variable {T : Type}

/-- How many segments wait that were counted. -/
def Session.waiting (s : Session T) : ℕ := s.counted.length + s.carried.length

/-- Neither the worker of a recording nor its forwarding task will do anything more. -/
def Session.isOver (s : Session T) : Prop := s.receiverDropped = true ∧ s.forwarder = .ended

/-- How many segments wait in all sessions. -/
def Backlog.waiting (b : Backlog T) : ℕ := ∑ k ∈ range b.started, (b.sessions k).waiting

/-- How many were counted and will not be taken. -/
def Backlog.stranded (b : Backlog T) : ℕ := ∑ k ∈ range b.started, (b.sessions k).stranded

theorem sum_update (f : Session T → ℕ) (sessions : ℕ → Session T) (s : Session T) {k n : ℕ} (hk : k < n) :
    (∑ j ∈ range n, f (Function.update sessions k s j)) + f (sessions k) =
      (∑ j ∈ range n, f (sessions j)) + f s := by
  have hmem : k ∈ range n := mem_range.mpr hk
  have hrest : ∑ j ∈ (range n).erase k, f (Function.update sessions k s j) =
      ∑ j ∈ (range n).erase k, f (sessions j) :=
    sum_congr rfl fun j hj => by rw [Function.update_of_ne (ne_of_mem_erase hj)]
  rw [← add_sum_erase _ _ hmem, ← add_sum_erase _ (fun j => f (sessions j)) hmem, hrest,
    Function.update_self]
  omega

theorem sum_start (f : Session T → ℕ) (sessions : ℕ → Session T) (s : Session T) (n : ℕ) :
    (∑ j ∈ range (n + 1), f (Function.update sessions n s j)) = (∑ j ∈ range n, f (sessions j)) + f s := by
  rw [sum_range_succ, Function.update_self]
  congr 1
  exact sum_congr rfl fun j hj => by rw [Function.update_of_ne (mem_range.mp hj).ne]

end

variable {T : Type} [Instant T] [LE T] [LT T] [DecidableLE T] [DecidableLT T] [OfScientific T]
  {ctx : WorkerContext} {c c' : Counters} {s s' : Session T} {events : List (WorkerEvent T)}
  {b b' : Backlog T} {label : Label T} {labels : List (Label T)}

/-- What an action does to the counter, and to the segments that it counts. -/
theorem depth_moves (hmove : Moves ctx c s c' s' events) :
    s.stranded ≤ s'.stranded ∧
      (c'.queueDepth = c.queueDepth ∧ s'.waiting + s'.stranded = s.waiting + s.stranded ∨
        c'.queueDepth = c.queueDepth + 1 ∧ s'.waiting + s'.stranded = s.waiting + s.stranded + 1 ∨
        c'.queueDepth = c.queueDepth - 1 ∧ s'.waiting + s'.stranded + 1 = s.waiting + s.stranded ∧
          0 < s.waiting) := by
  cases hmove <;>
    simp_all [Session.waiting, Session.carried, Session.dropReceiver, Session.settle] <;> omega

/-! ## Steps -/

/-- What a step of a session does to the counter, and to the segments that it counts. -/
theorem depth_next (hnext : b.next ctx label = some b') (h : b.Absent) (hlabel : label ≠ .start) :
    b.stranded ≤ b'.stranded ∧
      (b'.counters.queueDepth = b.counters.queueDepth ∧
          b'.waiting + b'.stranded = b.waiting + b.stranded ∨
        b'.counters.queueDepth = b.counters.queueDepth + 1 ∧
          b'.waiting + b'.stranded = b.waiting + b.stranded + 1 ∨
        b'.counters.queueDepth = b.counters.queueDepth - 1 ∧
          b'.waiting + b'.stranded + 1 = b.waiting + b.stranded ∧ 0 < b.waiting) := by
  obtain ⟨hstart, -⟩ | ⟨-, rfl⟩ | ⟨k, action, c, s, events, -, hmove, rfl⟩ := Backlog.next_cases hnext
  · exact absurd hstart hlabel
  · exact ⟨le_rfl, .inl ⟨rfl, rfl⟩⟩
  have hk : k < b.started := by
    by_contra hge
    rw [h k (Nat.le_of_not_lt hge)] at hmove
    exact not_moves_absent hmove
  have hwaiting := sum_update Session.waiting b.sessions s hk
  have hstranded := sum_update Session.stranded b.sessions s hk
  have hle : (b.sessions k).waiting ≤ b.waiting :=
    single_le_sum (f := fun k => (b.sessions k).waiting) (fun _ _ => Nat.zero_le _) (mem_range.mpr hk)
  obtain ⟨hmono, hdepth⟩ := depth_moves hmove
  simp only [Backlog.waiting, Backlog.stranded] at hle ⊢
  omega

theorem depth_start (hnext : b.next ctx .start = some b') :
    b'.counters.queueDepth = 0 ∧ b'.waiting = b.waiting ∧ b'.stranded = b.stranded := by
  obtain rfl := Option.some.inj hnext
  exact ⟨rfl, sum_start Session.waiting b.sessions .fresh b.started,
    sum_start Session.stranded b.sessions .fresh b.started⟩

/-! ## Runs -/

/-- The counter does not show more than there is. -/
structure Backlog.Covered (b : Backlog T) : Prop where
  /-- there are no other sessions -/
  absent : b.Absent
  /-- each segment that is counted waits, or is stranded -/
  le : b.counters.queueDepth ≤ b.waiting + b.stranded

theorem Backlog.Covered.next (hnext : b.next ctx label = some b') (h : b.Covered) : b'.Covered := by
  refine ⟨absent_next hnext h.absent, ?_⟩
  have hle := h.le
  cases label with
  | start =>
    obtain ⟨hdepth, hwaiting, hstranded⟩ := depth_start hnext
    omega
  | resetSpeechDetectedFlag =>
    have hdepth := depth_next hnext h.absent (by simp)
    omega
  | act k action =>
    have hdepth := depth_next hnext h.absent (by simp)
    omega

theorem covered_of_run (h : Backlog.initial.runAll ctx labels = some b) : b.Covered :=
  Backlog.runAll_induct h (fun _ _ _ _ hnext h => h.next hnext) ⟨fun _ _ => rfl, Nat.zero_le _⟩

/-- The counter shows what there is, but for `old` segments that are stranded. -/
structure Backlog.Exact (old : ℕ) (b : Backlog T) : Prop where
  /-- there are no other sessions -/
  absent : b.Absent
  /-- the others are stranded -/
  le : old ≤ b.stranded
  /-- what is shown is all the rest -/
  eq : b.counters.queueDepth + old = b.waiting + b.stranded

theorem Backlog.Exact.next {old : ℕ} (hnext : b.next ctx label = some b') (hlabel : label ≠ .start)
    (h : b.Exact old) : b'.Exact old := by
  obtain ⟨hmono, hdepth⟩ := depth_next hnext h.absent hlabel
  obtain ⟨habsent, hle, heq⟩ := h
  exact ⟨absent_next hnext habsent, by omega, by omega⟩

/-- Nothing waits where all is over. -/
theorem waiting_eq_zero (h : Backlog.initial.runAll ctx labels = some b)
    (hover : ∀ k < b.started, (b.sessions k).isOver) : b.waiting = 0 := by
  refine sum_eq_zero fun k hk => ?_
  obtain ⟨hdropped, hended⟩ := hover k (mem_range.mp hk)
  have hchannels := (inOrder_of_run h k).channels
  have hcounted : (b.sessions k).counted = [] := by
    obtain hfinished | hgone := Session.receiverDropped_eq_true_iff.mp hdropped
    · exact (hchannels.finished hfinished).2.1
    · exact hchannels.dropped hgone
  simp [Session.waiting, Session.carried, hcounted, hended]

/-- **The backlog that is shown** is never more than there is. It is exactly what there is, but for what
was stranded before, from the start of a recording on until that of the next one, if all that was before
is over. -/
theorem queueDepth_of_run (ctx : WorkerContext) (before after : List (Label T)) (b₀ b : Backlog T)
    (hbefore : Backlog.initial.runAll ctx before = some b₀)
    (hafter : b₀.runAll ctx (.start :: after) = some b) (hone : ∀ label ∈ after, label ≠ .start) :
    b.counters.queueDepth ≤ b.waiting + b.stranded ∧
      ((∀ k < b₀.started, (b₀.sessions k).isOver) →
        b.counters.queueDepth + b₀.stranded = b.waiting + b.stranded) := by
  have hcovered := covered_of_run hbefore
  obtain ⟨b₁, hstart, hrun⟩ := Option.bind_eq_some_iff.mp hafter
  have hcovered' : b.Covered :=
    Backlog.runAll_induct hrun (fun _ _ _ _ hnext h => h.next hnext) (hcovered.next hstart)
  refine ⟨hcovered'.le, fun hover => ?_⟩
  obtain ⟨hdepth, hwaiting, hstranded⟩ := depth_start hstart
  have hnone := waiting_eq_zero hbefore hover
  have hexact : b₁.Exact b₀.stranded := by
    refine ⟨absent_next hstart hcovered.absent, hstranded.ge, ?_⟩
    omega
  exact (Backlog.runAll_induct hrun (fun label hmem _ _ hnext h => h.next hnext (hone label hmem))
    hexact).eq

/-- Eight samples of silence. -/
def quiet (id : UInt64) : AudioChunk ℚ := ⟨List.replicate 8 0, 16000, 0, id, .microphone⟩

/-- A second recording, with two segments that are counted. -/
def twoSegments : List (Label ℚ) :=
  [.act 1 (.send (quiet 2)), .act 1 .forward, .act 1 (.send (quiet 3)), .act 1 .forward,
    .act 1 .forward]

theorem queueDepth_of_run_twoSegments :
    ∃ b₀ b, Backlog.initial.runAll plainContext oneSegment = some b₀ ∧
      b₀.runAll plainContext (.start :: twoSegments) = some b ∧
      b.counters.queueDepth = 2 ∧ b.counters.queueDepth ≤ b.waiting + b.stranded := by
  have hrun : (Backlog.initial.runAll plainContext oneSegment).bind (fun b₀ =>
      (b₀.runAll plainContext (.start :: twoSegments)).map fun b => b.counters.queueDepth) = some 2 := by
    decide +kernel
  obtain ⟨b₀, hbefore, hmap⟩ := Option.bind_eq_some_iff.mp hrun
  obtain ⟨b, hafter, hdepth⟩ := Option.map_eq_some_iff.mp hmap
  have hone : ∀ label ∈ twoSegments, label ≠ .start := by simp [twoSegments]
  exact ⟨b₀, b, hbefore, hafter, hdepth,
    (queueDepth_of_run plainContext oneSegment twoSegments b₀ b hbefore hafter hone).1⟩

end Transcription

end MeetilyLocal
