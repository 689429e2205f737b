import Mathlib.Data.Finset.Erase
import Mathlib.Data.Finset.Insert
import MeetilyLocal.Library.Tasks

/-!
# The download guard

`DownloadGuard` (`utils/download.rs`) rejects a second download of a name that is being downloaded,
and carries the request to cancel one to the loop of `download_file`. Downloads and requests run as
tasks that are interleaved between the sections of the two locks.

There is one slot for requests, whatever the name. A request takes the name out of the active set at
once, "so a retry isn't rejected while the old loop is still winding down". So that at most one loop
writes a name's file, and that each request is seen by the loop it is meant for and by no other
(`Safe`), such a retry must wait until the old download has finished, and while a request has not
been seen yet, no download may begin, no other request come and the loop not end by itself
(`careful`, `safe_of_reaches`).
-/

namespace MeetilyLocal

/-- Tracks in-flight downloads and cooperative cancellation requests. -/
structure DownloadGuard : Type where
  /-- the names that are being downloaded -/
  active : Finset String
  /-- the name whose download is to be cancelled -/
  cancelFlag : Option String

namespace DownloadGuard

/-- `DownloadGuard::new` -/
def new : DownloadGuard := ⟨∅, none⟩

/-- The first part of `begin`: mark a name active, unless it is. -/
def insertActive (guard : DownloadGuard) (name : String) : Option DownloadGuard :=
  if name ∈ guard.active then none else some { guard with active := insert name guard.active }

/-- The second part of `begin`: clear what may be left of an earlier request. -/
def clearCancel (guard : DownloadGuard) : DownloadGuard := { guard with cancelFlag := none }

/-- `finish`, and the second part of `request_cancel`: the name is no longer active. -/
def finish (guard : DownloadGuard) (name : String) : DownloadGuard :=
  { guard with active := guard.active.erase name }

/-- The first part of `request_cancel`. -/
def setCancel (guard : DownloadGuard) (name : String) : DownloadGuard :=
  { guard with cancelFlag := some name }

/-- `is_cancel_requested` -/
def isCancelRequested (guard : DownloadGuard) (name : String) : Bool :=
  guard.cancelFlag == some name

end DownloadGuard

namespace Downloads

/-- One download that has begun. -/
structure Download : Type where
  /-- which one it is -/
  number : ℕ
  /-- the name it was begun with -/
  name : String
  deriving DecidableEq

/-- What the tasks share, and what has become of the downloads. -/
structure Shared : Type where
  /-- the guard -/
  guard : DownloadGuard
  /-- how many downloads have begun -/
  begun : ℕ
  /-- the downloads that have begun and not finished -/
  live : List Download
  /-- those of them whose loop has not ended -/
  running : List Download
  /-- the downloads whose loop was running when a request for their name came -/
  accepted : List Download
  /-- the downloads that were live when a request took their name out of the active set -/
  evicted : List Download
  /-- the downloads whose loop has seen a request -/
  seen : List Download

namespace Shared

/-- The loop of a download has ended, or will not be reached. -/
def leave (s : Shared) (d : Download) : Shared := { s with running := s.running.filter (· ≠ d) }

/-- A download has finished. -/
def retire (s : Shared) (d : Download) : Shared := { s with live := s.live.filter (· ≠ d) }

/-- A request for a name was accepted. -/
def accept (s : Shared) (name : String) : Shared :=
  { s with accepted := s.running.filter (·.name = name) ++ s.accepted }

/-- A request took a name out of the active set. -/
def evict (s : Shared) (name : String) : Shared :=
  { s with evicted := s.live.filter (·.name = name) ++ s.evicted }

end Shared

/-- Where a download or a request is. -/
inductive DownloadTask : Type where
  /-- a task that does not exist -/
  | free : DownloadTask
  /-- `begin`, before the active set is locked -/
  | insertActive : String → DownloadTask
  /-- `begin`, before the request is cleared -/
  | clearCancel : Download → DownloadTask
  /-- before `download_file` has opened the file -/
  | prepare : Download → DownloadTask
  /-- the loop, before it looks for a request -/
  | look : Download → DownloadTask
  /-- the loop, before it takes the next chunk from the stream -/
  | read : Download → DownloadTask
  /-- after the loop, before the file is flushed and checked -/
  | flush : Download → DownloadTask
  /-- before `finish` -/
  | finish : Download → DownloadTask
  /-- `request_cancel`, before the request is set -/
  | setCancel : String → DownloadTask
  /-- `request_cancel`, before the name is removed -/
  | removeActive : String → DownloadTask
  /-- it has returned -/
  | finished : DownloadTask

namespace DownloadTask

/-- The download that a task is, until it has finished. -/
def download : DownloadTask → Option Download
  | clearCancel d | prepare d | look d | read d | flush d | finish d => some d
  | _ => none

/-- The download that a task is, until its loop has ended. -/
def runs : DownloadTask → Option Download
  | clearCancel d | prepare d | look d | read d => some d
  | _ => none

/-- The download that a task is, from when `begin` has returned until its loop has ended. -/
def started : DownloadTask → Option Download
  | prepare d | look d | read d => some d
  | _ => none

/-- The name whose file a task has opened for writing. -/
def writes : DownloadTask → Option String
  | look d | read d | flush d => some d.name
  | _ => none

theorem download_of_runs {a : DownloadTask} {d : Download} (h : a.runs = some d) :
    a.download = some d := by
  cases a <;> first | exact h | cases h

theorem runs_of_started {a : DownloadTask} {d : Download} (h : a.started = some d) :
    a.runs = some d := by
  cases a <;> first | exact h | cases h

theorem download_of_writes {a : DownloadTask} {name : String} (h : a.writes = some name) :
    ∃ d, a.download = some d ∧ d.name = name := by
  cases a <;> first | exact ⟨_, rfl, Option.some.inj h⟩ | cases h

end DownloadTask

/-- The calls from outside. -/
inductive DownloadCall : Type where
  /-- `download_model` -/
  | download : String → DownloadCall
  /-- `request_cancel` -/
  | requestCancel : String → DownloadCall

/-- What the outside decides at a step. -/
inductive DownloadEnv : Type where
  /-- it goes on: the request is answered, the next chunk is there -/
  | next : DownloadEnv
  /-- it ends: with an error, or because the stream does -/
  | leave : DownloadEnv
  /-- it returns before the loop and without calling `finish` -/
  | abandon : DownloadEnv
  deriving DecidableEq

/-- How a call from outside begins. -/
def begins : DownloadCall → Shared → Option (Shared × DownloadTask)
  | .download name, s => some (s, .insertActive name)
  | .requestCancel name, s => some (s, .setCancel name)

/-- One step of a download or a request. -/
def step (env : DownloadEnv) (s : Shared) :
    DownloadTask → Option (Tasks.Move Shared DownloadTask)
  | .free => none
  | .insertActive name =>
    match s.guard.insertActive name with
    | none => some ⟨s, .finished, none⟩
    | some guard =>
      let d : Download := ⟨s.begun, name⟩
      some ⟨{ s with guard := guard, begun := s.begun + 1, live := d :: s.live,
                     running := d :: s.running }, .clearCancel d, none⟩
  | .clearCancel d => some ⟨{ s with guard := s.guard.clearCancel }, .prepare d, none⟩
  | .prepare d =>
    match env with
    | .next => some ⟨s, .look d, none⟩
    | .leave => some ⟨s.leave d, .finish d, none⟩
    | .abandon => some ⟨(s.leave d).retire d, .finished, none⟩
  | .look d =>
    if s.guard.isCancelRequested d.name then
      some ⟨{ s.leave d with seen := d :: s.seen }, .flush d, none⟩
    else some ⟨s, .read d, none⟩
  | .read d =>
    match env with
    | .next => some ⟨s, .look d, none⟩
    | _ => some ⟨s.leave d, .flush d, none⟩
  | .flush d => some ⟨s, .finish d, none⟩
  | .finish d => some ⟨{ s.retire d with guard := s.guard.finish d.name }, .finished, none⟩
  | .setCancel name =>
    some ⟨{ s.accept name with guard := s.guard.setCancel name }, .removeActive name, none⟩
  | .removeActive name =>
    some ⟨{ s.evict name with guard := s.guard.finish name }, .finished, none⟩
  | .finished => none

/-- The program that downloads and requests run. -/
def program : Tasks.Program Shared DownloadTask DownloadEnv DownloadCall where
  isFree task := match task with | .free => true | _ => false
  begins := begins
  step := step

/-- No download has begun. -/
def start : Tasks.Config Shared DownloadTask :=
  ⟨⟨.new, 0, [], [], [], [], []⟩, fun _ => .free⟩

/-- At most one task writes the file of a name. An accepted request has been seen by the loop of its
download, or that will see it: it is running and the slot still has its name. A loop only sees a
request that was accepted for its download. -/
structure Safe (c : Tasks.Config Shared DownloadTask) : Prop where
  /-- no two tasks write one file -/
  oneWriter (t u : ℕ) (name : String) : t ≠ u → (c.tasks t).writes = some name →
    (c.tasks u).writes ≠ some name
  /-- a request is seen -/
  seen : ∀ d ∈ c.shared.accepted, d ∈ c.shared.seen ∨
    (∃ t, (c.tasks t).runs = some d) ∧ c.shared.guard.isCancelRequested d.name = true
  /-- by no other loop -/
  meant : ∀ d ∈ c.shared.seen, d ∈ c.shared.accepted

/-- A download does not begin beside one of its name that a request has evicted. While an accepted
request has not been seen, no download clears the slot, no request for another name takes it, and
the loop that should see it does not end. -/
def careful : Tasks.Discipline Shared DownloadTask DownloadEnv DownloadCall where
  call _ _ := True
  callBeside _ _ := True
  step env s a :=
    match a with
    | .clearCancel _ => ∀ d ∈ s.accepted, d ∈ s.seen
    | .setCancel name => ∀ d ∈ s.accepted, d ∈ s.seen ∨ d.name = name
    | .prepare d => env = .next ∨ (d ∈ s.accepted → d ∈ s.seen)
    | .read d => env = .next ∨ (d ∈ s.accepted → d ∈ s.seen)
    | _ => True
  stepBeside _ s a b :=
    match a with
    | .insertActive name =>
      name ∈ s.guard.active ∨ ∀ d ∈ b.download, d.name = name → d ∉ s.evicted
    | _ => True

/-! ## The invariant -/

/-- What holds where a download is. -/
structure Owned (s : Shared) (a : DownloadTask) : Prop where
  /-- it is live -/
  live : ∀ d ∈ a.download, d ∈ s.live
  /-- its name is active unless a request evicted it -/
  active : ∀ d ∈ a.download, d.name ∈ s.guard.active ∨ d ∈ s.evicted
  /-- it is running until its loop has ended -/
  running : ∀ d ∈ a.runs, d ∈ s.running
  /-- a request that it could see was accepted for it -/
  accepted : ∀ d ∈ a.started, s.guard.isCancelRequested d.name = true → d ∈ s.accepted

/-- The requests that were accepted and seen. -/
structure Requests (s : Shared) : Prop where
  /-- a request is seen, or waits in the slot for a loop that is running -/
  seen : ∀ d ∈ s.accepted, d ∈ s.seen ∨
    d ∈ s.running ∧ s.guard.isCancelRequested d.name = true
  /-- what is seen was accepted -/
  meant : ∀ d ∈ s.seen, d ∈ s.accepted

/-- The downloads that two tasks are have different names. -/
def Apart (a b : DownloadTask) : Prop :=
  ∀ d ∈ a.download, ∀ d' ∈ b.download, d.name ≠ d'.name

/-- The assertions about the downloads. -/
def guarded : Tasks.Assertions Shared DownloadTask := ⟨Requests, Owned, Apart⟩

theorem Apart.symm {a b : DownloadTask} (h : Apart a b) : Apart b a :=
  fun d hd d' hd' heq => h d' hd' d hd heq.symm

theorem apart_of_none {a b : DownloadTask} (h : a.download = none) : Apart a b := by
  intro d hd
  rw [h] at hd
  cases hd

/-- A task that is no download owns nothing. -/
theorem owned_of_none {s : Shared} {a : DownloadTask} (h : a.download = none) : Owned s a := by
  have hruns : ∀ d, a.runs = some d → False := fun d hd => by
    rw [DownloadTask.download_of_runs hd] at h
    cases h
  refine ⟨fun d hd => ?_, fun d hd => ?_, fun d hd => (hruns d hd).elim,
    fun d hd => (hruns d (DownloadTask.runs_of_started hd)).elim⟩
  · rw [h] at hd
    cases hd
  · rw [h] at hd
    cases hd

theorem mem_leave {s : Shared} {d d' : Download} :
    d' ∈ (s.leave d).running ↔ d' ∈ s.running ∧ d' ≠ d := by
  simp [Shared.leave]

theorem mem_retire {s : Shared} {d d' : Download} :
    d' ∈ (s.retire d).live ↔ d' ∈ s.live ∧ d' ≠ d := by
  simp [Shared.retire]

theorem mem_accept {s : Shared} {name : String} {d : Download} :
    d ∈ (s.accept name).accepted ↔ (d ∈ s.running ∧ d.name = name) ∨ d ∈ s.accepted := by
  simp [Shared.accept]

theorem mem_evict {s : Shared} {name : String} {d : Download} :
    d ∈ (s.evict name).evicted ↔ (d ∈ s.live ∧ d.name = name) ∨ d ∈ s.evicted := by
  simp [Shared.evict]

theorem isCancelRequested_iff {guard : DownloadGuard} {name : String} :
    guard.isCancelRequested name = true ↔ guard.cancelFlag = some name := by
  simp [DownloadGuard.isCancelRequested]

/-- What the first part of `begin` does if it succeeds. -/
theorem insertActive_eq_some {guard guard' : DownloadGuard} {name : String}
    (h : guard.insertActive name = some guard') :
    name ∉ guard.active ∧ guard' = { guard with active := insert name guard.active } := by
  rw [DownloadGuard.insertActive] at h
  split at h
  · cases h
  · next hnot => exact ⟨hnot, (Option.some.inj h).symm⟩

/-- A download whose loop has ended owns its name only. -/
theorem owned_of_ended {s : Shared} {a : DownloadTask} {d : Download} (hd : a.download = some d)
    (hruns : a.runs = none) (hlive : d ∈ s.live)
    (hactive : d.name ∈ s.guard.active ∨ d ∈ s.evicted) : Owned s a := by
  have hno : ∀ d', a.runs = some d' → False := fun d' hd' => by
    rw [hruns] at hd'
    cases hd'
  refine ⟨fun d' hd' => ?_, fun d' hd' => ?_, fun d' hd' => (hno d' hd').elim,
    fun d' hd' => (hno d' (DownloadTask.runs_of_started hd')).elim⟩
  · obtain rfl := Option.some.inj (hd.symm.trans hd')
    exact hlive
  · obtain rfl := Option.some.inj (hd.symm.trans hd')
    exact hactive

/-- A loop ends while no request waits for it. -/
theorem Requests.leave {s : Shared} {d : Download} (h : Requests s)
    (hnone : d ∈ s.accepted → d ∈ s.seen) : Requests (s.leave d) := by
  refine ⟨fun d' hd' => ?_, h.meant⟩
  rcases h.seen d' hd' with hseen | ⟨hruns, hrequested⟩
  · exact .inl hseen
  · rcases eq_or_ne d' d with rfl | hne
    · exact .inl (hnone hd')
    · exact .inr ⟨mem_leave.mpr ⟨hruns, hne⟩, hrequested⟩

/-- A loop ends because it has seen a request that was accepted for it. -/
theorem Requests.see {s : Shared} {d : Download} (h : Requests s) (haccepted : d ∈ s.accepted) :
    Requests { s.leave d with seen := d :: s.seen } := by
  refine ⟨fun d' hd' => ?_, fun d' hd' => ?_⟩
  · rcases eq_or_ne d' d with rfl | hne
    · exact .inl List.mem_cons_self
    · exact (h.seen d' hd').imp (List.mem_cons_of_mem _)
        fun hwaits => ⟨mem_leave.mpr ⟨hwaits.1, hne⟩, hwaits.2⟩
  · rcases List.mem_cons.mp hd' with rfl | hold
    · exact haccepted
    · exact h.meant d' hold

/-- A request is accepted when each one that has not been seen is for the same name. -/
theorem Requests.accept {s : Shared} {name : String} (h : Requests s)
    (hsame : ∀ d ∈ s.accepted, d ∈ s.seen ∨ d.name = name) :
    Requests { s.accept name with guard := s.guard.setCancel name } := by
  refine ⟨fun d hd => ?_, fun d hd => mem_accept.mpr (.inr (h.meant d hd))⟩
  rcases mem_accept.mp hd with ⟨hruns, rfl⟩ | hold
  · exact .inr ⟨hruns, isCancelRequested_iff.mpr rfl⟩
  · rcases hsame d hold with hseen | rfl
    · exact .inl hseen
    · exact (h.seen d hold).imp_right fun hwaits => ⟨hwaits.1, isCancelRequested_iff.mpr rfl⟩

/-- What another task's step keeps of what a download owns. -/
theorem Owned.frame {s s' : Shared} {b : DownloadTask} (h : Owned s b)
    (hlive : ∀ d ∈ b.download, d ∈ s.live → d ∈ s'.live)
    (hactive : ∀ d ∈ b.download, d ∈ s.live → d.name ∈ s.guard.active ∨ d ∈ s.evicted →
      d.name ∈ s'.guard.active ∨ d ∈ s'.evicted)
    (hrunning : ∀ d ∈ b.runs, d ∈ s.running → d ∈ s'.running)
    (haccepted : ∀ d ∈ b.started, d ∈ s.running → s'.guard.isCancelRequested d.name = true →
      (s.guard.isCancelRequested d.name = true → d ∈ s.accepted) → d ∈ s'.accepted) :
    Owned s' b where
  live d hd := hlive d hd (h.live d hd)
  active d hd := hactive d hd (h.live d hd) (h.active d hd)
  running d hd := hrunning d hd (h.running d hd)
  accepted d hd hrequested := haccepted d hd (h.running d (DownloadTask.runs_of_started hd))
    hrequested (h.accepted d hd)

/-- The end of a loop keeps what another download owns. -/
theorem Owned.leave {s : Shared} {b : DownloadTask} {d : Download} (h : Owned s b)
    (hne : ∀ d' ∈ b.download, d' ≠ d) : Owned (s.leave d) b :=
  h.frame (fun _ _ => id) (fun _ _ _ => id)
    (fun d' hd' hruns => mem_leave.mpr ⟨hruns, hne d' (DownloadTask.download_of_runs hd')⟩)
    (fun _ _ _ hrequested haccepted => haccepted hrequested)

/-- The end of a download keeps what another one owns. -/
theorem Owned.retire {s : Shared} {b : DownloadTask} {d : Download} (h : Owned s b)
    (hne : ∀ d' ∈ b.download, d' ≠ d) : Owned (s.retire d) b :=
  h.frame (fun d' hd' hlive => mem_retire.mpr ⟨hlive, hne d' hd'⟩) (fun _ _ _ => id)
    (fun _ _ => id) (fun _ _ _ hrequested haccepted => haccepted hrequested)

theorem Apart.ne {a b : DownloadTask} {d : Download} (h : Apart a b) (hd : a.download = some d) :
    ∀ d' ∈ b.download, d' ≠ d :=
  fun d' hd' heq => h d hd d' hd' (congrArg Download.name heq.symm)

/-- A task that goes on as the same download stays apart. -/
theorem Apart.same {a a' b : DownloadTask} (h : Apart a b) (hsame : a'.download = a.download) :
    Apart a' b :=
  fun d hd => h d (hsame ▸ hd)

/-! ### One step -/

theorem step_guarded {env : DownloadEnv} {s : Shared} {a : DownloadTask}
    {move : Tasks.Move Shared DownloadTask} (hallowed : careful.step env s a) (h : Requests s)
    (hown : Owned s a) (heq : step env s a = some move) :
    Requests move.shared ∧ Owned move.shared move.task := by
  cases a with
  | free => cases heq
  | finished => cases heq
  | insertActive name =>
    rw [step] at heq
    rcases hinsert : s.guard.insertActive name with _ | guard <;> rw [hinsert] at heq
    · cases heq
      exact ⟨h, owned_of_none rfl⟩
    · cases heq
      obtain ⟨-, rfl⟩ := insertActive_eq_some hinsert
      refine ⟨⟨fun d hd => ?_, h.meant⟩, ⟨?_, ?_, ?_, ?_⟩⟩
      · exact (h.seen d hd).imp_right fun hwaits => ⟨List.mem_cons_of_mem _ hwaits.1, hwaits.2⟩
      · rintro d ⟨⟩
        exact List.mem_cons_self
      · rintro d ⟨⟩
        exact .inl (Finset.mem_insert_self _ _)
      · rintro d ⟨⟩
        exact List.mem_cons_self
      · rintro d ⟨⟩
  | clearCancel d =>
    cases heq
    refine ⟨⟨fun d' hd' => .inl (hallowed d' hd'), h.meant⟩,
      ⟨hown.live, hown.active, hown.running, ?_⟩⟩
    rintro d' - hrequested
    cases isCancelRequested_iff.mp hrequested
  | prepare d =>
    cases env with
    | next =>
      cases heq
      exact ⟨h, hown.live, hown.active, hown.running, hown.accepted⟩
    | leave =>
      cases heq
      have hnone : d ∈ s.accepted → d ∈ s.seen := hallowed.resolve_left (by decide)
      exact ⟨h.leave hnone, owned_of_ended rfl rfl (hown.live d rfl) (hown.active d rfl)⟩
    | abandon =>
      cases heq
      have hnone : d ∈ s.accepted → d ∈ s.seen := hallowed.resolve_left (by decide)
      obtain ⟨hseen, hmeant⟩ := h.leave hnone
      exact ⟨⟨hseen, hmeant⟩, owned_of_none rfl⟩
  | look d =>
    rw [step] at heq
    split at heq
    · next hrequested =>
      cases heq
      exact ⟨h.see (hown.accepted d rfl hrequested),
        owned_of_ended rfl rfl (hown.live d rfl) (hown.active d rfl)⟩
    · cases heq
      exact ⟨h, hown.live, hown.active, hown.running, hown.accepted⟩
  | read d =>
    have hended : ∀ s' : Shared, Requests s' → s'.live = s.live → s'.guard = s.guard →
        s'.evicted = s.evicted → Requests s' ∧ Owned s' (.flush d) := by
      rintro s' h' hlive hguard hevicted
      refine ⟨h', owned_of_ended rfl rfl (hlive ▸ hown.live d rfl) ?_⟩
      rw [hguard, hevicted]
      exact hown.active d rfl
    cases env with
    | next =>
      cases heq
      exact ⟨h, hown.live, hown.active, hown.running, hown.accepted⟩
    | leave =>
      cases heq
      exact hended _ (h.leave (hallowed.resolve_left (by decide))) rfl rfl rfl
    | abandon =>
      cases heq
      exact hended _ (h.leave (hallowed.resolve_left (by decide))) rfl rfl rfl
  | flush d =>
    cases heq
    exact ⟨h, owned_of_ended rfl rfl (hown.live d rfl) (hown.active d rfl)⟩
  | finish d =>
    cases heq
    exact ⟨⟨h.seen, h.meant⟩, owned_of_none rfl⟩
  | setCancel name =>
    cases heq
    exact ⟨h.accept hallowed, owned_of_none rfl⟩
  | removeActive name =>
    cases heq
    exact ⟨⟨h.seen, h.meant⟩, owned_of_none rfl⟩

theorem beside_guarded {env : DownloadEnv} {s : Shared} {a b : DownloadTask}
    {move : Tasks.Move Shared DownloadTask} (hallowed : careful.stepBeside env s a b)
    (hb : Owned s b) (hapart : Apart a b) (heq : step env s a = some move) :
    Owned move.shared b ∧ Apart move.task b := by
  cases a with
  | free => cases heq
  | finished => cases heq
  | insertActive name =>
    rw [step] at heq
    rcases hinsert : s.guard.insertActive name with _ | guard <;> rw [hinsert] at heq
    · cases heq
      exact ⟨hb, apart_of_none rfl⟩
    · cases heq
      obtain ⟨hnot, rfl⟩ := insertActive_eq_some hinsert
      have hevicted := hallowed.resolve_left hnot
      refine ⟨hb.frame (fun _ _ => List.mem_cons_of_mem _)
        (fun _ _ _ => Or.imp_left (Finset.mem_insert_of_mem ·))
        (fun _ _ => List.mem_cons_of_mem _)
        (fun _ _ _ hrequested haccepted => haccepted hrequested), ?_⟩
      -- another download of the name would be active or evicted
      rintro d ⟨⟩ d' hd' hname
      have hsame : d'.name = name := hname.symm
      rcases hb.active d' hd' with hactive | hgone
      · exact hnot (hsame ▸ hactive)
      · exact hevicted d' hd' hsame hgone
  | clearCancel d =>
    cases heq
    refine ⟨hb.frame (fun _ _ => id) (fun _ _ _ => id) (fun _ _ => id) ?_, hapart.same rfl⟩
    rintro d' - - hrequested
    cases isCancelRequested_iff.mp hrequested
  | prepare d =>
    have hne := hapart.ne rfl
    cases env with
    | next =>
      cases heq
      exact ⟨hb, hapart.same rfl⟩
    | leave =>
      cases heq
      exact ⟨hb.leave hne, hapart.same rfl⟩
    | abandon =>
      cases heq
      exact ⟨(hb.leave hne).retire hne, apart_of_none rfl⟩
  | look d =>
    rw [step] at heq
    split at heq
    · cases heq
      obtain ⟨hlive, hactive, hrunning, haccepted⟩ := hb.leave (hapart.ne rfl)
      exact ⟨⟨hlive, hactive, hrunning, haccepted⟩, hapart.same rfl⟩
    · cases heq
      exact ⟨hb, hapart.same rfl⟩
  | read d =>
    have hne := hapart.ne rfl
    cases env with
    | next =>
      cases heq
      exact ⟨hb, hapart.same rfl⟩
    | leave =>
      cases heq
      exact ⟨hb.leave hne, hapart.same rfl⟩
    | abandon =>
      cases heq
      exact ⟨hb.leave hne, hapart.same rfl⟩
  | flush d =>
    cases heq
    exact ⟨hb, hapart.same rfl⟩
  | finish d =>
    cases heq
    refine ⟨hb.frame (fun d' hd' hlive => mem_retire.mpr ⟨hlive, hapart.ne rfl d' hd'⟩) ?_
      (fun _ _ => id) (fun _ _ _ hrequested haccepted => haccepted hrequested), apart_of_none rfl⟩
    -- the name that is removed is another one
    intro d' hd' _ hactive
    exact hactive.imp_left fun hmem => Finset.mem_erase.mpr ⟨(hapart d rfl d' hd').symm, hmem⟩
  | setCancel name =>
    cases heq
    refine ⟨hb.frame (fun _ _ => id) (fun _ _ _ => id) (fun _ _ => id) ?_, apart_of_none rfl⟩
    intro d _ hruns hrequested _
    have hname : name = d.name := Option.some.inj (isCancelRequested_iff.mp hrequested)
    exact mem_accept.mpr (.inl ⟨hruns, hname.symm⟩)
  | removeActive name =>
    cases heq
    refine ⟨hb.frame (fun _ _ => id) ?_ (fun _ _ => id)
      (fun _ _ _ hrequested haccepted => haccepted hrequested), apart_of_none rfl⟩
    -- what is removed from the active set is evicted
    intro d _ hlive hactive
    rcases eq_or_ne d.name name with hname | hname
    · exact .inr (mem_evict.mpr (.inl ⟨hlive, hname⟩))
    · exact hactive.imp (fun hmem => Finset.mem_erase.mpr ⟨hname, hmem⟩)
        fun hgone => mem_evict.mpr (.inr hgone)

/-- Nothing is spawned. -/
theorem spawned_eq_none {env : DownloadEnv} {s : Shared} {a : DownloadTask}
    {move : Tasks.Move Shared DownloadTask} (heq : step env s a = some move) :
    move.spawned = none := by
  cases a with
  | free => cases heq
  | finished => cases heq
  | insertActive name =>
    rw [step] at heq
    rcases hinsert : s.guard.insertActive name with _ | guard <;> rw [hinsert] at heq <;>
      cases heq <;> rfl
  | prepare d => cases env <;> cases heq <;> rfl
  | look d =>
    rw [step] at heq
    split at heq <;> cases heq <;> rfl
  | read d => cases env <;> cases heq <;> rfl
  | clearCancel d => cases heq; rfl
  | flush d => cases heq; rfl
  | finish d => cases heq; rfl
  | setCancel name => cases heq; rfl
  | removeActive name => cases heq; rfl

theorem stable_guarded : Tasks.Assertions.Stable .trivial guarded program careful where
  symm h := Apart.symm h
  call {k s s' a} _ hs hbegins := by
    obtain ⟨-, h⟩ := hs
    cases k <;> cases hbegins <;> exact ⟨h, owned_of_none rfl⟩
  callBeside {k s s' a b} _ _ _ hb hbegins := by
    obtain ⟨-, h⟩ := hb
    cases k <;> cases hbegins <;> exact ⟨h, apart_of_none rfl⟩
  step htaken := step_guarded htaken.allowed htaken.shared.2 htaken.own.2 htaken.eq
  beside hbeside :=
    beside_guarded hbeside.allowedBeside hbeside.ownOther.2 hbeside.pair.2 hbeside.eq
  spawn htaken hspawned := by
    rw [spawned_eq_none htaken.eq] at hspawned
    cases hspawned
  spawnBeside hbeside hspawned := by
    rw [spawned_eq_none hbeside.eq] at hspawned
    cases hspawned

/-! ### The loop of a running download -/

/-- A step adds no running download but the one that the task is, and drops that one when its loop
ends. -/
theorem running_of_step {env : DownloadEnv} {s : Shared} {a : DownloadTask}
    {move : Tasks.Move Shared DownloadTask} (heq : step env s a = some move) {d : Download}
    (hd : d ∈ move.shared.running) :
    move.task.runs = some d ∨ (d ∈ s.running ∧ a.runs ≠ some d) := by
  have hother : ∀ d' : Download, d ∈ (s.leave d').running →
      d ∈ s.running ∧ some d' ≠ some d := by
    intro d' hmem
    obtain ⟨hruns, hne⟩ := mem_leave.mp hmem
    exact ⟨hruns, fun hsame => hne (Option.some.inj hsame).symm⟩
  -- a loop that goes on is its own, the others are as before
  have hgoes : ∀ d' : Download, d ∈ s.running →
      some d' = some d ∨ (d ∈ s.running ∧ some d' ≠ some d) :=
    fun d' hmem => (em (some d' = some d)).imp_right fun hne => ⟨hmem, hne⟩
  cases a with
  | free => cases heq
  | finished => cases heq
  | insertActive name =>
    rw [step] at heq
    rcases hinsert : s.guard.insertActive name with _ | guard <;> rw [hinsert] at heq
    · cases heq
      exact .inr ⟨hd, nofun⟩
    · cases heq
      rcases List.mem_cons.mp hd with rfl | hold
      · exact .inl rfl
      · exact .inr ⟨hold, nofun⟩
  | clearCancel d' =>
    cases heq
    exact hgoes d' hd
  | prepare d' =>
    cases env with
    | next =>
      cases heq
      exact hgoes d' hd
    | leave =>
      cases heq
      exact .inr (hother d' hd)
    | abandon =>
      cases heq
      exact .inr (hother d' hd)
  | look d' =>
    rw [step] at heq
    split at heq
    · cases heq
      exact .inr (hother d' hd)
    · cases heq
      rcases eq_or_ne d d' with rfl | hne
      · exact .inl rfl
      · exact .inr ⟨hd, fun hsame => hne (Option.some.inj hsame).symm⟩
  | read d' =>
    cases env with
    | next =>
      cases heq
      exact hgoes d' hd
    | leave =>
      cases heq
      exact .inr (hother d' hd)
    | abandon =>
      cases heq
      exact .inr (hother d' hd)
  | flush d' => cases heq; exact .inr ⟨hd, nofun⟩
  | finish d' => cases heq; exact .inr ⟨hd, nofun⟩
  | setCancel name => cases heq; exact .inr ⟨hd, nofun⟩
  | removeActive name => cases heq; exact .inr ⟨hd, nofun⟩

theorem runs_of_isFree {a : DownloadTask} (h : program.isFree a = true) : a.runs = none := by
  cases a <;> first | rfl | cases h

/-- A running download has a loop. -/
theorem exists_runs {discipline : Tasks.Discipline Shared DownloadTask DownloadEnv DownloadCall}
    {c : Tasks.Config Shared DownloadTask} (h : Tasks.Reaches program discipline start c)
    {d : Download} (hd : d ∈ c.shared.running) : ∃ t, (c.tasks t).runs = some d := by
  induction h with
  | refl => cases hd
  | @step c c' label _ _ hnext ih =>
    rcases Tasks.Program.next_cases hnext with
      ⟨t, call, shared, task, rfl, hfree, hbegins, rfl⟩ | ⟨t, env, child, move, rfl, hstep, hafter⟩
    · have hsame : shared = c.shared := by cases call <;> cases hbegins <;> rfl
      obtain ⟨u, hu⟩ := ih (hsame ▸ hd)
      refine ⟨u, ?_⟩
      rcases eq_or_ne u t with rfl | hne
      · rw [runs_of_isFree hfree] at hu
        cases hu
      · simpa [hne] using hu
    · obtain ⟨hshared, htask, hothers⟩ := Tasks.Program.afterMove_cases hafter
      rcases running_of_step hstep (hshared ▸ hd) with hmine | ⟨hold, hnot⟩
      · exact ⟨t, htask ▸ hmine⟩
      · obtain ⟨u, hu⟩ := ih hold
        have hne : u ≠ t := by
          rintro rfl
          exact hnot hu
        rcases hothers u hne with hsame | ⟨hspawned, -⟩
        · exact ⟨u, hsame ▸ hu⟩
        · rw [spawned_eq_none hstep] at hspawned
          cases hspawned

/-- **The download guard.** In every run that is careful about retries and about requests that have
not been seen, at most one task writes the file of a name, and each accepted request is seen by the
loop it is meant for and by no other. -/
theorem safe_of_reaches {c : Tasks.Config Shared DownloadTask}
    (h : Tasks.Reaches program careful start c) : Safe c := by
  have hguarded : guarded.Hold c := by
    refine stable_guarded.of_reaches (fun _ _ => Tasks.Assertions.hold_trivial) ?_ h
    exact ⟨⟨nofun, nofun⟩, fun _ => owned_of_none rfl, fun _ _ _ => apart_of_none rfl⟩
  refine ⟨fun t u name htu ht hu => ?_, fun d hd => ?_, hguarded.shared.meant⟩
  · obtain ⟨d, hd, rfl⟩ := DownloadTask.download_of_writes ht
    obtain ⟨d', hd', hname⟩ := DownloadTask.download_of_writes hu
    exact hguarded.pair t u htu d hd d' hd' hname.symm
  · exact (hguarded.shared.seen d hd).imp_right fun hwaits => ⟨exists_runs h hwaits.1, hwaits.2⟩

/-! ### Runs of a download, a request and a retry -/

instance (k : DownloadCall) (s : Shared) : Decidable (careful.call k s) :=
  inferInstanceAs (Decidable True)

instance (k : DownloadCall) (b : DownloadTask) : Decidable (careful.callBeside k b) :=
  inferInstanceAs (Decidable True)

instance (env : DownloadEnv) (s : Shared) : ∀ a, Decidable (careful.step env s a)
  | .clearCancel _ => inferInstanceAs (Decidable (∀ d ∈ s.accepted, d ∈ s.seen))
  | .setCancel name => inferInstanceAs (Decidable (∀ d ∈ s.accepted, d ∈ s.seen ∨ d.name = name))
  | .prepare d => inferInstanceAs (Decidable (env = .next ∨ (d ∈ s.accepted → d ∈ s.seen)))
  | .read d => inferInstanceAs (Decidable (env = .next ∨ (d ∈ s.accepted → d ∈ s.seen)))
  | .free => inferInstanceAs (Decidable True)
  | .insertActive _ => inferInstanceAs (Decidable True)
  | .look _ => inferInstanceAs (Decidable True)
  | .flush _ => inferInstanceAs (Decidable True)
  | .finish _ => inferInstanceAs (Decidable True)
  | .removeActive _ => inferInstanceAs (Decidable True)
  | .finished => inferInstanceAs (Decidable True)

instance (env : DownloadEnv) (s : Shared) (b : DownloadTask) :
    ∀ a, Decidable (careful.stepBeside env s a b)
  | .insertActive name => inferInstanceAs (Decidable
      (name ∈ s.guard.active ∨ ∀ d ∈ b.download, d.name = name → d ∉ s.evicted))
  | .free => inferInstanceAs (Decidable True)
  | .clearCancel _ => inferInstanceAs (Decidable True)
  | .prepare _ => inferInstanceAs (Decidable True)
  | .look _ => inferInstanceAs (Decidable True)
  | .read _ => inferInstanceAs (Decidable True)
  | .flush _ => inferInstanceAs (Decidable True)
  | .finish _ => inferInstanceAs (Decidable True)
  | .setCancel _ => inferInstanceAs (Decidable True)
  | .removeActive _ => inferInstanceAs (Decidable True)
  | .finished => inferInstanceAs (Decidable True)

/-- A download runs until its loop waits for a chunk, and a request to cancel it comes. -/
def cancelled : List (Tasks.Label DownloadEnv DownloadCall) :=
  [.call 0 (.download "tiny"), .run 0 .next 3, .run 0 .next 3, .run 0 .next 3, .run 0 .next 3,
    .call 1 (.requestCancel "tiny"), .run 1 .next 3, .run 1 .next 3]

/-- The loop sees the request, and after it has finished the download begins anew. -/
def patientRetry : List (Tasks.Label DownloadEnv DownloadCall) :=
  cancelled ++ [.run 0 .next 3, .run 0 .next 3, .run 0 .next 3, .run 0 .next 3,
    .call 2 (.download "tiny"), .run 2 .next 3, .run 2 .next 3, .run 2 .next 3]

/-- The download begins anew at once. -/
def quickRetry : List (Tasks.Label DownloadEnv DownloadCall) :=
  cancelled ++ [.call 2 (.download "tiny"), .run 2 .next 3, .run 2 .next 3, .run 2 .next 3]

/-- A request that was seen, and a retry. -/
theorem safe_patientRetry : ∃ c : Tasks.Config Shared DownloadTask,
    Tasks.Program.runBelow program careful 4 start patientRetry = some c ∧
      c.shared.seen = [⟨0, "tiny"⟩] ∧ (c.tasks 2).writes = some "tiny" ∧ Safe c :=
  ⟨_, rfl, rfl, rfl, safe_of_reaches (Tasks.Reaches.of_runBelow (fun _ => trivial)
    (fun env s a => by cases a <;> first | trivial | exact .inr nofun) (fun _ _ => rfl) .refl
    (show Tasks.Program.runBelow program careful 4 start patientRetry = some _ from rfl))⟩

/-- In general the guard is not safe: after a quick retry both downloads write the file, and the
request is gone. -/
theorem not_safe_quickRetry :
    ¬∀ c : Tasks.Config Shared DownloadTask, Tasks.Reaches program .free start c → Safe c := by
  intro h
  obtain ⟨c, hrun, hold, hnew⟩ : ∃ c : Tasks.Config Shared DownloadTask,
      program.runAll start quickRetry = some c ∧ (c.tasks 0).writes = some "tiny" ∧
        (c.tasks 2).writes = some "tiny" := ⟨_, rfl, rfl, rfl⟩
  exact (h c (Tasks.Reaches.of_runAll .refl hrun)).oneWriter 0 2 "tiny" (by decide) hold hnew

end Downloads

end MeetilyLocal
