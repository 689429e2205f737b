import Mathlib.Data.List.Nodup
import MeetilyLocal.Recording.SegmentDelivery

/-!
# Accounts of the segments

What the tasks of the service rely on along the way of the segments (`Delivery.Fits`), and where
each published segment is: with the manager of its session, in the buffer, or in the hands of its
worker (`Delivery.Accounted`, `Delivery.Delivers`). What one step keeps of it is proved of
`DeliveryStep` alone.
-/

namespace MeetilyLocal

namespace Stage

/-- A start or a stop that has its flag. -/
def underWay : Stage → Bool
  | away | works _ _ => false
  | _ => true

/-- The session that a start has not started the worker of, or that a worker works for. -/
def session : Stage → Option SessionId
  | prepares created => created
  | stored m | works m _ => some m
  | _ => none

end Stage

namespace Delivery

/-- No worker runs, but maybe those of one session. -/
def OnlyRuns (v : Delivery) (m : SessionId) : Prop := ∀ other, v.worker other = .running → other = m

/-- No worker runs. -/
def Quiet (v : Delivery) : Prop := ∀ m, v.worker m ≠ .running

/-- Between starts and stops nothing is buffered, and the worker that runs, and whose handle is
kept, is that of the manager in the slot. -/
structure Rest (v : Delivery) : Prop where
  /-- nothing is buffered -/
  pending : v.pending = []
  /-- what runs is in the slot -/
  running : ∀ m, v.worker m = .running → v.manager = some m
  /-- its handle is kept -/
  task : ∀ m, v.manager = some m → v.task = some m

/-- What a start or a stop relies on. -/
def Fits (v : Delivery) : Stage → Prop
  | .looks => v.Rest
  | .prepares _ => v.manager = none ∧ v.pending = [] ∧ v.Quiet
  | .stored m => v.manager = some m ∧ v.pending = [] ∧ v.Quiet
  | .spawned m => v.manager = some m ∧ v.pending = [] ∧ v.OnlyRuns m
  | .carries m => v.manager = none ∧ v.task = some m ∧ v.OnlyRuns m ∧
      ∀ segment ∈ v.pending, segment.session = m
  | .replayed m => v.manager = none ∧ v.task = some m ∧ v.OnlyRuns m ∧ v.pending = []
  | .drains m => v.pending = [] ∧ v.OnlyRuns m ∧ ∀ other, v.worker other = .running →
      v.manager = some other
  | .drained => v.pending = [] ∧ v.Quiet
  | .saved => v.manager = none ∧ v.pending = [] ∧ v.Quiet
  | _ => True

variable {v : Delivery} {m c : SessionId}

theorem filter_of_other {other : SessionId} {segments : List Segment}
    (hsegments : ∀ segment ∈ segments, segment.session = m) (hne : other ≠ m) :
    (segments.filter fun segment => segment.session = other) = [] := by
  refine List.filter_eq_nil_iff.mpr fun segment hsegment => ?_
  rw [hsegments segment hsegment]
  simpa using hne.symm

theorem filter_of_own {segments : List Segment} (hsegments : ∀ segment ∈ segments,
    segment.session = m) : (segments.filter fun segment => segment.session = m) = segments := by
  refine List.filter_eq_self.mpr fun segment hsegment => ?_
  simpa using hsegments segment hsegment

/-- Only a worker that is started runs afterwards and did not before. -/
theorem running_setWorker {status : WorkerStatus} {other : SessionId}
    (h : (v.setWorker m status).worker other = .running) :
    (other = m ∧ status = .running) ∨ v.worker other = .running := by
  rcases eq_or_ne other m with rfl | hne
  · rw [worker_setWorker_self] at h
    exact .inl ⟨rfl, h⟩
  · rw [worker_setWorker_of_ne hne] at h
    exact .inr h

theorem running_create {other : SessionId} (h : v.create.worker other = .running) :
    v.worker other = .running := by
  rcases eq_or_ne other v.nextSession with rfl | hne
  · rw [worker_create_self] at h
    cases h
  · rwa [worker_create_of_ne hne] at h

/-- The segments that have arrived are no concern of starts and stops. -/
theorem Fits.congr {v' : Delivery} {g : Stage} (h : v.Fits g) (hmanager : v'.manager = v.manager)
    (htask : v'.task = v.task) (hpending : v'.pending = v.pending)
    (hworker : v'.worker = v.worker) : v'.Fits g := by
  cases g with
  | looks => exact ⟨hpending ▸ h.pending, hworker ▸ hmanager ▸ h.running,
      htask ▸ hmanager ▸ h.task⟩
  | away => trivial
  | works => trivial
  | _ => simpa only [Fits, OnlyRuns, Quiet, hmanager, htask, hpending, hworker] using h

/-- What runs is in the slot, if something is. -/
theorem Fits.manager {g : Stage} (h : v.Fits g) (hunder : g.underWay = true)
    (hrunning : v.worker m = .running) (hmanager : v.manager = some c) : c = m := by
  cases g with
  | looks => exact Option.some.inj (hmanager.symm.trans (h.running m hrunning))
  | prepares => exact absurd hrunning (h.2.2 m)
  | stored => exact absurd hrunning (h.2.2 m)
  | spawned =>
    obtain ⟨hstored, -, honly⟩ := h
    exact (Option.some.inj (hmanager.symm.trans hstored)).trans (honly m hrunning).symm
  | carries => exact absurd (h.1.symm.trans hmanager) nofun
  | replayed => exact absurd (h.1.symm.trans hmanager) nofun
  | drains => exact Option.some.inj (hmanager.symm.trans (h.2.2 m hrunning))
  | drained => exact absurd hrunning (h.2 m)
  | saved => exact absurd hrunning (h.2.2 m)
  | _ => cases hunder

/-- Where nothing of a session is in the slot, none of its workers runs and nothing of it is
buffered. -/
theorem Rest.gone (h : v.Rest) (hslot : v.manager ≠ some m) :
    v.worker m ≠ .running ∧ (v.pending.filter fun segment => segment.session = m) = [] := by
  rw [h.pending]
  exact ⟨fun hrunning => hslot (h.running m hrunning), rfl⟩

/-- Nor is something left of it, if a stop does not carry it. -/
theorem Fits.gone {g : Stage} (h : v.Fits g) (hunder : g.underWay = true)
    (hslot : v.manager ≠ some m) (hcarries : ¬(g = .carries m ∨ g = .replayed m)) :
    v.worker m ≠ .running ∧ (v.pending.filter fun segment => segment.session = m) = [] := by
  obtain ⟨hcarried, hreplayed⟩ := not_or.mp hcarries
  cases g with
  | looks => exact Rest.gone h hslot
  | prepares => exact ⟨h.2.2 m, by rw [h.2.1]; rfl⟩
  | stored => exact ⟨h.2.2 m, by rw [h.2.1]; rfl⟩
  | spawned other =>
    obtain ⟨hstored, hpending, honly⟩ := h
    refine ⟨fun hrunning => hslot ?_, by rw [hpending]; rfl⟩
    rw [honly m hrunning]
    exact hstored
  | carries other =>
    obtain ⟨-, -, honly, hpending⟩ := h
    have hne : m ≠ other := fun heq => hcarried (heq ▸ rfl)
    exact ⟨fun hrunning => hne (honly m hrunning), filter_of_other hpending hne⟩
  | replayed other =>
    obtain ⟨-, -, honly, hpending⟩ := h
    refine ⟨fun hrunning => hreplayed (by rw [honly m hrunning]), by rw [hpending]; rfl⟩
  | drains other =>
    obtain ⟨hpending, -, hrunning⟩ := h
    exact ⟨fun hruns => hslot (hrunning m hruns), by rw [hpending]; rfl⟩
  | drained => exact ⟨h.2 m, by rw [h.1]; rfl⟩
  | saved => exact ⟨h.2.2 m, by rw [h.2.1]; rfl⟩
  | _ => cases hunder

/-- A worker that finishes disturbs nothing. -/
theorem Fits.finish {g : Stage} (h : v.Fits g) : (v.setWorker m .done).Fits g := by
  have hless : ∀ other, (v.setWorker m .done).worker other = .running →
      v.worker other = .running := by
    intro other hother
    rcases running_setWorker hother with ⟨-, hdone⟩ | hrunning
    · cases hdone
    · exact hrunning
  cases g with
  | looks => exact ⟨h.pending, fun other hother => h.running other (hless other hother), h.task⟩
  | prepares => exact ⟨h.1, h.2.1, fun other hother => h.2.2 other (hless other hother)⟩
  | stored => exact ⟨h.1, h.2.1, fun other hother => h.2.2 other (hless other hother)⟩
  | spawned => exact ⟨h.1, h.2.1, fun other hother => h.2.2 other (hless other hother)⟩
  | carries => exact ⟨h.1, h.2.1, fun other hother => h.2.2.1 other (hless other hother), h.2.2.2⟩
  | replayed => exact ⟨h.1, h.2.1, fun other hother => h.2.2.1 other (hless other hother), h.2.2.2⟩
  | drains =>
    exact ⟨h.1, fun other hother => h.2.1 other (hless other hother),
      fun other hother => h.2.2 other (hless other hother)⟩
  | drained => exact ⟨h.1, fun other hother => h.2 other (hless other hother)⟩
  | saved => exact ⟨h.1, h.2.1, fun other hother => h.2.2 other (hless other hother)⟩
  | _ => trivial

/-- A segment is buffered while a stop has the manager, and before it replays the buffer. -/
theorem Fits.buffer {g : Stage} {segment : Segment} (h : v.Fits g)
    (hreplayed : ∀ other, g ≠ .replayed other) (hrunning : v.worker m = .running)
    (hsegment : segment.session = m) (hmanager : v.manager = none) :
    ({ v with pending := v.pending ++ [segment] } : Delivery).Fits g := by
  cases g with
  | looks => exact absurd (hmanager.symm.trans (h.running m hrunning)) nofun
  | prepares => exact absurd hrunning (h.2.2 m)
  | stored => exact absurd hrunning (h.2.2 m)
  | spawned => exact absurd (hmanager.symm.trans h.1) nofun
  | carries =>
    obtain ⟨hnone, htask, honly, hpending⟩ := h
    refine ⟨hnone, htask, honly, fun other hother => ?_⟩
    rcases List.mem_append.mp hother with hbefore | hnew
    · exact hpending other hbefore
    · rw [List.mem_singleton.mp hnew, hsegment]
      exact honly m hrunning
  | replayed other => exact absurd rfl (hreplayed other)
  | drains => exact absurd (hmanager.symm.trans (h.2.2 m hrunning)) nofun
  | drained => exact absurd hrunning (h.2 m)
  | saved => exact absurd hrunning (h.2.2 m)
  | _ => trivial

variable {other : SessionId}

/-! ## Where the segments are -/

/-- The segments of a session that have arrived: its manager has them, or they are buffered. -/
def arrived (v : Delivery) (m : SessionId) : List Segment :=
  v.segments m ++ v.pending.filter fun segment => segment.session = m

/-- The segments are accounted for. -/
structure Accounted (v : Delivery) : Prop where
  /-- a manager has segments of its own session only -/
  own : ∀ m, ∀ segment ∈ v.segments m, segment.session = m
  /-- what a worker published is numbered -/
  numbered : ∀ m, (v.published m).map Segment.sequence = List.range (v.published m).length
  /-- where no worker runs, all that was published has arrived -/
  done : ∀ m, v.worker m ≠ .running → (v.published m).Perm (v.arrived m)

/-- What a worker has published has arrived, or is in its hands. -/
def Delivers (v : Delivery) : Stage → Prop
  | .works m inflight => (v.published m).Perm (v.arrived m ++ inflight.toList)
  | _ => True

theorem arrived_create_of_ne (h : other ≠ v.nextSession) :
    v.create.arrived other = v.arrived other := by
  rw [arrived, arrived, segments_create_of_ne h]
  rfl

theorem arrived_create_self (h : v.pending = []) : v.create.arrived v.nextSession = [] := by
  have hpending : v.create.pending = [] := h
  rw [arrived, segments_create_self, hpending]
  rfl

/-- The replay takes the segments from the buffer to the manager. -/
theorem arrived_replay (h : ∀ segment ∈ v.pending, segment.session = m) :
    ({ v.add m v.pending with pending := [] } : Delivery).arrived other = v.arrived other := by
  show (v.add m v.pending).segments other ++ [] = _
  rw [List.append_nil, arrived]
  rcases eq_or_ne other m with rfl | hne
  · rw [segments_add_self, filter_of_own h]
  · rw [segments_add_of_ne hne, filter_of_other h hne, List.append_nil]

theorem arrived_add_of_ne {added : List Segment} (h : other ≠ m) :
    (v.add m added).arrived other = v.arrived other := by
  rw [arrived, arrived, segments_add_of_ne h]
  rfl

theorem arrived_add_self {added : List Segment} :
    ((v.add m added).arrived m).Perm (v.arrived m ++ added) := by
  show ((v.add m added).segments m ++ v.pending.filter _).Perm _
  rw [segments_add_self, arrived, List.append_assoc, List.append_assoc]
  exact List.perm_append_comm.append_left _

theorem arrived_buffer_of_ne {segment : Segment} (hsegment : segment.session = m) (h : other ≠ m) :
    ({ v with pending := v.pending ++ [segment] } : Delivery).arrived other = v.arrived other := by
  show v.segments other ++ (v.pending ++ [segment]).filter _ = _
  have hnone : ([segment].filter fun segment => segment.session = other) = [] :=
    filter_of_other (by simpa using hsegment) h
  rw [List.filter_append, hnone, List.append_nil, arrived]

theorem arrived_buffer_self {segment : Segment} (hsegment : segment.session = m) :
    ({ v with pending := v.pending ++ [segment] } : Delivery).arrived m =
      v.arrived m ++ [segment] := by
  show v.segments m ++ (v.pending ++ [segment]).filter _ = _
  have hall : ([segment].filter fun segment => segment.session = m) = [segment] :=
    filter_of_own (by simpa using hsegment)
  rw [List.filter_append, hall, arrived, List.append_assoc]

end Delivery

namespace DeliveryStep

variable {v v' : Delivery} {g g' : Stage} {m : SessionId}

/-- A start or a stop begins in order. -/
theorem enter (h : DeliveryStep v g v' g') (hbefore : g.underWay = false)
    (hafter : g'.underWay = true) (hrest : v.Rest) : v'.Fits g' := by
  cases h with
  | stays => exact absurd (hbefore.symm.trans hafter) nofun
  | begins => exact hrest
  | _ => first | (cases hbefore; done) | cases hafter

/-- It goes on as it needs to. -/
theorem within (h : DeliveryStep v g v' g') (hbefore : g.underWay = true)
    (hafter : g'.underWay = true) (hfits : v.Fits g) : v'.Fits g' := by
  cases h with
  | stays => exact hfits
  | prepares hnone =>
    refine ⟨hnone, hfits.pending, fun m hrunning => ?_⟩
    exact absurd (hnone.symm.trans (hfits.running m hrunning)) nofun
  | creates =>
    exact ⟨hfits.1, hfits.2.1, fun m hrunning => hfits.2.2 m (Delivery.running_create hrunning)⟩
  | fails =>
    obtain ⟨hnone, hpending, hquiet⟩ := hfits
    exact ⟨hpending, fun m hrunning => absurd hrunning (hquiet m),
      fun m hm => absurd (hnone.symm.trans hm) nofun⟩
  | stores => exact ⟨rfl, hfits.2.1, hfits.2.2⟩
  | @spawns m =>
    obtain ⟨hstored, hpending, hquiet⟩ := hfits
    refine ⟨hstored, hpending, fun other hrunning => ?_⟩
    rcases Delivery.running_setWorker hrunning with ⟨rfl, -⟩ | hbefore
    · rfl
    · exact absurd hbefore (hquiet other)
  | storesTask =>
    obtain ⟨hstored, hpending, honly⟩ := hfits
    refine ⟨hpending, fun other hrunning => ?_, fun other hother => ?_⟩
    · rw [honly other hrunning]
      exact hstored
    · exact hstored.symm.trans hother
  | @takes m hm =>
    refine ⟨rfl, hfits.task m hm, fun other hrunning => ?_, fun segment hsegment => ?_⟩
    · exact Option.some.inj ((hfits.running other hrunning).symm.trans hm)
    · replace hsegment : segment ∈ v.pending := hsegment
      rw [hfits.pending] at hsegment
      cases hsegment
  | takesNothing hnone =>
    refine ⟨hfits.pending, fun m hrunning => ?_, nofun⟩
    exact absurd (hnone.symm.trans (hfits.running m hrunning)) nofun
  | replays => exact ⟨hfits.1, hfits.2.1, hfits.2.2.1, rfl⟩
  | putsBack =>
    obtain ⟨-, htask, honly, hpending⟩ := hfits
    refine ⟨hpending, fun other hrunning => ?_, fun other hother => ?_⟩
    · rw [honly other hrunning]
    · exact htask.trans hother
  | @takesTask m hm =>
    refine ⟨hfits.pending, fun other hrunning => ?_, hfits.running⟩
    have htask := hfits.task other (hfits.running other hrunning)
    exact Option.some.inj (htask.symm.trans hm)
  | takesNoTask hnone =>
    refine ⟨hfits.pending, fun other hrunning => ?_⟩
    have htask := hfits.task other (hfits.running other hrunning)
    exact absurd (hnone.symm.trans htask) nofun
  | drainEnds hdone =>
    obtain ⟨hpending, honly, -⟩ := hfits
    refine ⟨hpending, fun other hrunning => ?_⟩
    rw [honly other hrunning, hdone] at hrunning
    cases hrunning
  | takesAll => exact ⟨rfl, hfits.1, hfits.2⟩
  | _ => first | (cases hbefore; done) | cases hafter

/-- It leaves all in order. -/
theorem leave (h : DeliveryStep v g v' g') (hbefore : g.underWay = true)
    (hafter : g'.underWay = false) (hfits : v.Fits g) : v'.Rest := by
  cases h with
  | stays => exact absurd (hbefore.symm.trans hafter) nofun
  | startEnds => exact hfits
  | stopEnds =>
    obtain ⟨hnone, hpending, hquiet⟩ := hfits
    exact ⟨hpending, fun m hrunning => absurd hrunning (hquiet m),
      fun m hm => absurd (hnone.symm.trans hm) nofun⟩
  | _ => first | (cases hbefore; done) | cases hafter

/-- A worker disturbs nothing, if it does not find the slot empty after the replay. -/
theorem outside (h : DeliveryStep v g v' g') (hbefore : g.underWay = false)
    (hafter : g'.underWay = false) {k : Stage}
    (hworks : ∀ m segment, g = .works m (some segment) →
      v.worker m = .running ∧ segment.session = m)
    (hreplayed : ∀ m segment, g = .works m (some segment) → ∀ other, k ≠ .replayed other)
    (hfits : v.Fits k) : v'.Fits k := by
  cases h with
  | stays => exact hfits
  | publishes => exact hfits.congr rfl rfl rfl rfl
  | delivers => exact hfits.congr rfl rfl rfl rfl
  | buffers hnone =>
    obtain ⟨hrunning, hsegment⟩ := hworks _ _ rfl
    exact hfits.buffer (hreplayed _ _ rfl) hrunning hsegment hnone
  | finishes => exact hfits.finish
  | _ => first | (cases hbefore; done) | cases hafter

/-- A worker never comes to be in a start or a stop. -/
theorem worker (h : DeliveryStep v g v' g') (hbefore : ∃ inflight, g = .works m inflight) :
    g'.underWay = false := by
  obtain ⟨inflight, rfl⟩ := hbefore
  cases h <;> rfl

/-- At rest, it stays so. -/
theorem outsideRest (h : DeliveryStep v g v' g') (hbefore : g.underWay = false)
    (hafter : g'.underWay = false)
    (hworks : ∀ m segment, g = .works m (some segment) →
      v.worker m = .running ∧ segment.session = m) (hrest : v.Rest) : v'.Rest :=
  h.outside (k := .looks) hbefore hafter hworks (fun _ _ _ _ => nofun) hrest

theorem nextSession (h : DeliveryStep v g v' g') : v.nextSession ≤ v'.nextSession := by
  cases h with
  | creates => exact Nat.le_succ v.nextSession
  | _ => exact Nat.le_refl v.nextSession

/-- The session of a task is the one it had, or is new. -/
theorem session (h : DeliveryStep v g v' g') (hsession : g'.session = some m) :
    g.session = some m ∨ (m = v.nextSession ∧ m < v'.nextSession) := by
  cases h with
  | creates =>
    obtain rfl := Option.some.inj hsession
    exact .inr ⟨rfl, Nat.lt_succ_self _⟩
  | _ => first | (cases hsession; done) | exact .inl hsession

/-- A worker of another session goes on running. -/
theorem running (h : DeliveryStep v g v' g') (hsession : g.session ≠ some m)
    (hknown : m < v.nextSession) (hrunning : v.worker m = .running) : v'.worker m = .running := by
  cases h with
  | creates => exact (Delivery.worker_create_of_ne (Nat.ne_of_lt hknown)).trans hrunning
  | @spawns other =>
    have hne : m ≠ other := fun heq => hsession (heq ▸ rfl)
    exact (Delivery.worker_setWorker_of_ne hne).trans hrunning
  | @finishes other =>
    have hne : m ≠ other := fun heq => hsession (heq ▸ rfl)
    exact (Delivery.worker_setWorker_of_ne hne).trans hrunning
  | _ => exact hrunning

/-- A worker that works on runs, with a segment of its own. -/
theorem works (h : DeliveryStep v g v' g') {inflight : Option Segment}
    (hstage : g' = .works m inflight)
    (hbefore : ∀ before, g = .works m before →
      v.worker m = .running ∧ ∀ segment ∈ before, segment.session = m) :
    v'.worker m = .running ∧ ∀ segment ∈ inflight, segment.session = m := by
  cases h with
  | stays => exact hbefore inflight hstage
  | publishes =>
    cases hstage
    refine ⟨(hbefore none rfl).1, ?_⟩
    rintro _ ⟨⟩
    rfl
  | delivers =>
    cases hstage
    exact ⟨(hbefore _ rfl).1, nofun⟩
  | buffers =>
    cases hstage
    exact ⟨(hbefore _ rfl).1, nofun⟩
  | _ => cases hstage

/-- A step accounts for the segments. -/
theorem accounted (h : DeliveryStep v g v' g') (hv : v.Accounted) (hfits : v.Fits g)
    (hdelivers : v.Delivers g)
    (hworks : ∀ m inflight, g = .works m inflight →
      v.worker m = .running ∧ ∀ segment ∈ inflight, segment.session = m)
    (hplace : ∀ m inflight, g = .works m inflight → ∀ c, v.manager = some c → c = m) :
    v'.Accounted := by
  cases h with
  | creates =>
    refine ⟨fun m segment hsegment => ?_, fun m => ?_, fun m hidle => ?_⟩
    · rcases eq_or_ne m v.nextSession with rfl | hne
      · rw [Delivery.segments_create_self] at hsegment
        cases hsegment
      · rw [Delivery.segments_create_of_ne hne] at hsegment
        exact hv.own m segment hsegment
    · rcases eq_or_ne m v.nextSession with rfl | hne
      · rw [Delivery.published_create_self]
        rfl
      · rw [Delivery.published_create_of_ne hne]
        exact hv.numbered m
    · rcases eq_or_ne m v.nextSession with rfl | hne
      · rw [Delivery.published_create_self, Delivery.arrived_create_self hfits.2.1]
      · rw [Delivery.worker_create_of_ne hne] at hidle
        rw [Delivery.published_create_of_ne hne, Delivery.arrived_create_of_ne hne]
        exact hv.done m hidle
  | @spawns m =>
    refine ⟨hv.own, hv.numbered, fun other hidle => ?_⟩
    rcases eq_or_ne other m with rfl | hne
    · exact absurd Delivery.worker_setWorker_self hidle
    · rw [Delivery.worker_setWorker_of_ne hne] at hidle
      exact hv.done other hidle
  | @replays m =>
    obtain ⟨-, -, -, hpending⟩ := hfits
    refine ⟨fun other segment hsegment => ?_, hv.numbered, fun other hidle => ?_⟩
    · replace hsegment : segment ∈ (v.add m v.pending).segments other := hsegment
      rcases eq_or_ne other m with rfl | hne
      · rw [Delivery.segments_add_self] at hsegment
        rcases List.mem_append.mp hsegment with hbefore | hreplayed
        · exact hv.own other segment hbefore
        · exact hpending segment hreplayed
      · rw [Delivery.segments_add_of_ne hne] at hsegment
        exact hv.own other segment hsegment
    · rw [Delivery.arrived_replay hpending]
      exact hv.done other hidle
  | @publishes m =>
    obtain ⟨hrunning, -⟩ := hworks m none rfl
    refine ⟨hv.own, fun other => ?_, fun other hidle => ?_⟩
    · rcases eq_or_ne other m with rfl | hne
      · rw [Delivery.published_publish_self, List.map_append, hv.numbered, List.length_append]
        exact List.range_succ.symm
      · rw [Delivery.published_publish_of_ne hne]
        exact hv.numbered other
    · have hne : other ≠ m := by
        rintro rfl
        exact hidle hrunning
      rw [Delivery.published_publish_of_ne hne]
      exact hv.done other hidle
  | @delivers m c segment hmanager =>
    obtain ⟨hrunning, hsegment⟩ := hworks m _ rfl
    obtain rfl := hplace m _ rfl c hmanager
    refine ⟨fun other old hold => ?_, hv.numbered, fun other hidle => ?_⟩
    · rcases eq_or_ne other c with rfl | hne
      · rw [Delivery.segments_add_self] at hold
        rcases List.mem_append.mp hold with hbefore | hnew
        · exact hv.own other old hbefore
        · rw [List.mem_singleton.mp hnew]
          exact hsegment segment rfl
      · rw [Delivery.segments_add_of_ne hne] at hold
        exact hv.own other old hold
    · have hne : other ≠ c := by
        rintro rfl
        exact hidle hrunning
      rw [Delivery.arrived_add_of_ne hne]
      exact hv.done other hidle
  | @buffers m segment hmanager =>
    obtain ⟨hrunning, hsegment⟩ := hworks m _ rfl
    refine ⟨hv.own, hv.numbered, fun other hidle => ?_⟩
    have hne : other ≠ m := by
      rintro rfl
      exact hidle hrunning
    rw [Delivery.arrived_buffer_of_ne (hsegment segment rfl) hne]
    exact hv.done other hidle
  | @finishes m =>
    refine ⟨hv.own, hv.numbered, fun other hidle => ?_⟩
    rcases eq_or_ne other m with rfl | hne
    · have hall : (v.published other).Perm (v.arrived other ++ []) := hdelivers
      rw [List.append_nil] at hall
      exact hall
    · rw [Delivery.worker_setWorker_of_ne hne] at hidle
      exact hv.done other hidle
  | _ => exact ⟨hv.own, hv.numbered, hv.done⟩

/-- A worker that works on has delivered what it does not have in its hands. -/
theorem delivered (h : DeliveryStep v g v' g') (hdelivers : v.Delivers g)
    (hworks : ∀ m inflight, g = .works m inflight → ∀ segment ∈ inflight, segment.session = m)
    (hplace : ∀ m inflight, g = .works m inflight → ∀ c, v.manager = some c → c = m) :
    v'.Delivers g' := by
  cases h with
  | stays => exact hdelivers
  | @publishes m =>
    have hall : (v.published m).Perm (v.arrived m ++ []) := hdelivers
    rw [List.append_nil] at hall
    show ((v.publish m).published m).Perm (v.arrived m ++ [v.nextSegment m])
    rw [Delivery.published_publish_self]
    exact hall.append_right _
  | @delivers m c segment hmanager =>
    obtain rfl := hplace m _ rfl c hmanager
    have hall : (v.published c).Perm (v.arrived c ++ [segment]) := hdelivers
    show (v.published c).Perm ((v.add c [segment]).arrived c ++ [])
    rw [List.append_nil]
    exact hall.trans Delivery.arrived_add_self.symm
  | @buffers m segment hmanager =>
    have hall : (v.published m).Perm (v.arrived m ++ [segment]) := hdelivers
    show (v.published m).Perm (Delivery.arrived _ m ++ [])
    rw [List.append_nil, Delivery.arrived_buffer_self (hworks m _ rfl segment rfl)]
    exact hall
  | _ => trivial

/-- A step leaves what another worker has delivered. -/
theorem deliversBeside (h : DeliveryStep v g v' g') {k : Stage} (hfits : v.Fits g)
    (hknown : ∀ m, k.session = some m → m < v.nextSession)
    (hapart : ∀ m, g.session = some m → k.session ≠ some m)
    (hworks : ∀ m inflight, g = .works m inflight → ∀ segment ∈ inflight, segment.session = m)
    (hplace : ∀ m inflight, g = .works m inflight → ∀ c, v.manager = some c → c = m)
    (hdelivers : v.Delivers k) : v'.Delivers k := by
  cases k with
  | works m inflight =>
    have hother : ∀ other, g.session = some other → m ≠ other := by
      rintro _ hother rfl
      exact hapart m hother rfl
    cases h with
    | creates =>
      have hne : m ≠ v.nextSession := Nat.ne_of_lt (hknown m rfl)
      show (v.create.published m).Perm (v.create.arrived m ++ inflight.toList)
      rw [Delivery.published_create_of_ne hne, Delivery.arrived_create_of_ne hne]
      exact hdelivers
    | replays =>
      show (v.published m).Perm (Delivery.arrived _ m ++ inflight.toList)
      rw [Delivery.arrived_replay hfits.2.2.2]
      exact hdelivers
    | @publishes other =>
      show ((v.publish other).published m).Perm (v.arrived m ++ inflight.toList)
      rw [Delivery.published_publish_of_ne (hother other rfl)]
      exact hdelivers
    | @delivers other c segment hmanager =>
      obtain rfl := hplace other _ rfl c hmanager
      show (v.published m).Perm ((v.add c [segment]).arrived m ++ inflight.toList)
      rw [Delivery.arrived_add_of_ne (hother c rfl)]
      exact hdelivers
    | @buffers other segment hmanager =>
      show (v.published m).Perm (Delivery.arrived _ m ++ inflight.toList)
      rw [Delivery.arrived_buffer_of_ne (hworks other _ rfl segment rfl) (hother other rfl)]
      exact hdelivers
    | _ => exact hdelivers
  | _ => trivial

end DeliveryStep

end MeetilyLocal
