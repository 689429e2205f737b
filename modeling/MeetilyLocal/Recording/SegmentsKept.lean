import MeetilyLocal.Library.Turns
import MeetilyLocal.Recording.ManagerSafety
import MeetilyLocal.Recording.SegmentAccounts

/-!
# Every segment is kept in its session

Three gaps lose a segment: the worker runs before the subscriber is installed, a segment that finds
the slot empty after the buffer was replayed stays in the buffer, for the next session to take up,
and a drain that stalls goes on without its worker. Where starts and stops follow one another and
none of the three happens, each segment is added once to the manager of its session before that is
saved, and none to another's (`RecordingService.keepsSegments_of_reaches`).
-/

namespace MeetilyLocal

namespace RecordingService

variable {env : Env} {s : Service} {a : ServiceTask} {m : SessionId}
  {move : Tasks.Move Service ServiceTask}

/-! ## Successive sessions -/

/-- A start or a stop that has not returned. -/
def calls : ServiceTask → Bool
  | .start _ _ | .stop _ _ => true
  | _ => false

/-- A worker that publishes a segment. -/
def publishes (env : Env) : ServiceTask → Bool
  | .worker _ .idle => env.ok
  | _ => false

/-- A stop that waits for the worker. -/
def drains : ServiceTask → Bool
  | .stop _ (.drain _) => true
  | _ => false

/-- A subscriber that is about to look for the manager. -/
def delivers : ServiceTask → Bool
  | .worker _ (.deliver _) => true
  | _ => false

/-- A stop that is about to put the manager back. -/
def putsBack : ServiceTask → Bool
  | .stop _ (.putBack _) => true
  | _ => false

/-- Starts and stops follow one another: none takes a step before the others have returned. -/
def successive : Tasks.Discipline Service ServiceTask Env ServiceCall where
  call _ _ := True
  callBeside _ _ := True
  step _ _ _ := True
  stepBeside _ _ a b := calls a = true → calls b = false

/-- And none of the gaps is met: a worker publishes while the subscriber is installed, its segments
are not delivered between the replay and the putting back, and a drain ends with its worker. -/
def gapless : Tasks.Discipline Service ServiceTask Env ServiceCall where
  call _ _ := True
  callBeside _ _ := True
  step env s a := (publishes env a = true → s.subscriber.isSome = true) ∧
    (drains a = true → env.ok = true)
  stepBeside _ _ a b := (calls a = true → calls b = false) ∧
    (delivers a = true → putsBack b = false)

theorem noStopBetweenChecks_of_gapless {b : ServiceTask} (h : gapless.stepBeside env s a b) :
    noStopBetweenChecks.stepBeside env s a b := by
  intro htries _ hchecks
  have hstop : calls a = true := by
    cases a with
    | stop call pc => rfl
    | start pool pc => cases pc <;> cases htries
    | _ => cases htries
  have hstart : calls b = true := by
    cases b with
    | start pool pc => rfl
    | stop call pc => cases pc <;> cases hchecks
    | _ => cases hchecks
  exact absurd ((h.1 hstop).symm.trans hstart) nofun

/-- A step that is taken in such a run is a step on the way of the segments. -/
theorem deliveryStep_of_gapless (h : step env s a = some move) (hallowed : gapless.step env s a)
    (hs : managed.shared s) (hown : managed.own s a) :
    DeliveryStep s.delivery a.stage move.shared.delivery move.task.stage := by
  refine deliveryStep_of_step h (fun hrole hidle => ?_) (fun call m ha => ?_) fun m ha hok => ?_
  · -- without a stop, a manager in the slot would record
    rcases hmanager : s.manager with _ | m
    · rfl
    · have hrecords := hs (hown.checks hrole) m hmanager
      rw [Service.isRecording, hmanager] at hidle
      exact absurd (hidle.symm.trans hrecords) Bool.false_ne_true
  · exact hallowed.2 (ha ▸ rfl)
  · exact hallowed.1 (ha ▸ hok)

/-! ## The workers -/

/-- The session of a task was created, and is no other task's; a worker that works runs, with a
segment of its own. -/
def working : Tasks.Assertions Service ServiceTask where
  shared _ := True
  own s a := (∀ m, a.stage.session = some m → m < s.delivery.nextSession) ∧
    ∀ m inflight, a.stage = .works m inflight →
      s.delivery.worker m = .running ∧ ∀ segment ∈ inflight, segment.session = m
  pair a b := ∀ m, a.stage.session = some m → b.stage.session ≠ some m

theorem working_own (h : a.stage = .away) : working.own s a := by
  refine ⟨fun m hsession => ?_, fun m inflight hstage => ?_⟩
  · rw [h] at hsession
    cases hsession
  · exact absurd (h.symm.trans hstage) nofun

theorem working_pair {b : ServiceTask} (h : a.stage = .away) : working.pair a b := by
  intro m hsession
  rw [h] at hsession
  cases hsession

theorem stable_working : Tasks.Assertions.Stable managed working program gapless where
  symm hpair m hb ha := hpair m ha hb
  call {k s s' a} _ _ hbegins := by
    obtain ⟨-, hstage⟩ := delivery_begins hbegins
    exact ⟨trivial, working_own hstage⟩
  callBeside {k s s' a b} _ _ _ hb hbegins := by
    obtain ⟨hdelivery, hstage⟩ := delivery_begins hbegins
    refine ⟨?_, working_pair hstage⟩
    show (∀ m, b.stage.session = some m → m < s'.delivery.nextSession) ∧ _
    rw [hdelivery]
    exact hb.2
  step {env s a move} htaken := by
    obtain ⟨hallowed, ⟨hs, -⟩, ⟨hown, hknown, hworks⟩, heq⟩ := htaken
    have hstep := deliveryStep_of_gapless heq hallowed hs hown
    refine ⟨trivial, fun m hsession => ?_, fun m inflight hstage => ?_⟩
    · rcases hstep.session hsession with hbefore | ⟨-, hnew⟩
      · exact Nat.lt_of_lt_of_le (hknown m hbefore) hstep.nextSession
      · exact hnew
    · exact hstep.works hstage (hworks m)
  beside {env s a b move} hbeside := by
    obtain ⟨⟨hallowed, ⟨hs, -⟩, ⟨hown, -⟩, heq⟩, -, ⟨-, hknown, hworks⟩, -, hpair⟩ := hbeside
    have hstep := deliveryStep_of_gapless heq hallowed hs hown
    refine ⟨⟨fun m hsession => ?_, fun m inflight hstage => ?_⟩, fun m hsession hother => ?_⟩
    · exact Nat.lt_of_lt_of_le (hknown m hsession) hstep.nextSession
    · obtain ⟨hrunning, hsegment⟩ := hworks m inflight hstage
      have hsession : b.stage.session = some m := by rw [hstage]; rfl
      have hapart : a.stage.session ≠ some m := fun ha => hpair m ha hsession
      exact ⟨hstep.running hapart (hknown m hsession) hrunning, hsegment⟩
    · rcases hstep.session hsession with hbefore | ⟨hnew, -⟩
      · exact hpair m hbefore hother
      · exact absurd hnew (Nat.ne_of_lt (hknown m hother))
  spawn {env s a child move} htaken hspawned := by
    obtain ⟨-, -, ⟨-, hknown, -⟩, heq⟩ := htaken
    rcases stage_spawned heq hspawned with ⟨m, hstage, hdelivery, hmoved, hchild⟩ | haway
    · refine ⟨⟨fun other hsession => ?_, fun other inflight hworks => ?_⟩, fun other hsession => ?_⟩
      · rw [hchild] at hsession
        obtain rfl := Option.some.inj hsession
        rw [hdelivery]
        exact hknown m (by rw [hstage]; rfl)
      · rw [hchild] at hworks
        cases hworks
        rw [hdelivery]
        exact ⟨Delivery.worker_setWorker_self, nofun⟩
      · rw [hmoved] at hsession
        cases hsession
    · exact ⟨working_own haway, fun m hm hsession => working_pair haway m hsession hm⟩
  spawnBeside {env s a b child move} hbeside hspawned := by
    obtain ⟨-, hpair⟩ := hbeside.pair
    rcases stage_spawned hbeside.eq hspawned with ⟨m, hstage, -, -, hchild⟩ | haway
    · intro other hsession
      rw [hchild] at hsession
      obtain rfl := Option.some.inj hsession
      exact hpair m (by rw [hstage]; rfl)
    · exact working_pair haway

/-- What holds in every run that meets none of the gaps. -/
def employed : Tasks.Assertions Service ServiceTask := managed.and working

theorem hold_employed {c : Tasks.Config Service ServiceTask}
    (h : Tasks.Reaches program gapless start c) : employed.Hold c := by
  have hmanaged : ∀ {c}, Tasks.Reaches program gapless start c → managed.Hold c :=
    fun hreach => hold_managed noStopBetweenChecks_of_gapless hreach
  refine (hmanaged h).and (stable_working.of_reaches (fun _ => hmanaged) ?_ h)
  exact ⟨trivial, fun _ => working_own rfl, fun _ _ _ => working_pair rfl⟩

/-! ## Turns -/

section Turns

variable {c : Tasks.Config Service ServiceTask} {t child : ℕ}

/-- A step of such a run is a step on the way of the segments. -/
theorem deliveryStep_of_reaches (hreach : Tasks.Reaches program gapless start c)
    (hallow : gapless.Allows c (.run t env child))
    (hstep : step env c.shared (c.tasks t) = some move) :
    DeliveryStep c.shared.delivery (c.tasks t).stage move.shared.delivery move.task.stage := by
  have hemployed := hold_employed hreach
  exact deliveryStep_of_gapless hstep hallow.1 hemployed.shared.1 (hemployed.own t).1

theorem calls_of_underWay (h : a.stage.underWay = true) : calls a = true := by
  cases a with
  | start pool pc => rfl
  | stop call pc => rfl
  | worker m pc => cases pc <;> cases h
  | _ => cases h

theorem stage_worker (m : SessionId) (pc : WorkerPc) :
    ∃ inflight, pc.stage m = .works m inflight := by
  cases pc with
  | idle => exact ⟨none, rfl⟩
  | enqueue c segment => exact ⟨some segment, rfl⟩
  | deliver segment => exact ⟨some segment, rfl⟩

theorem role_of_stage (h : a.stage = .carries m ∨ a.stage = .replayed m) :
    a.role = .stopCarries m := by
  cases a with
  | start pool pc => cases pc <;> rcases h with h | h <;> cases h
  | stop call pc => cases pc <;> rcases h with h | h <;> first | (cases h; done) | (cases h; rfl)
  | worker m' pc => cases pc <;> rcases h with h | h <;> cases h
  | _ => rcases h with h | h <;> cases h

theorem putsBack_of_stage (h : a.stage = .replayed m) : putsBack a = true := by
  cases a with
  | start pool pc => cases pc <;> cases h
  | stop call pc => cases pc <;> first | (cases h; done) | rfl
  | worker m' pc => cases pc <;> cases h
  | _ => cases h

/-- What gets its flag is a start or a stop. -/
theorem calls_of_step (h : step env s a = some move)
    (hdelivery : DeliveryStep s.delivery a.stage move.shared.delivery move.task.stage)
    (hafter : move.task.stage.underWay = true) : calls a = true := by
  cases a with
  | start pool pc => rfl
  | stop call pc => rfl
  | toggle resume pc =>
    rw [(delivery_toggleStep h).2] at hafter
    cases hafter
  | report m error pc =>
    rw [(delivery_reportStep h).2] at hafter
    cases hafter
  | worker m pc => exact absurd ((hdelivery.worker (stage_worker m pc)).symm.trans hafter) nofun
  | _ => cases h

/-- A worker with a segment in its hands delivers it, or changes nothing. -/
theorem delivers_of_step (h : step env s a = some move) :
    delivers a = true ∨ move.shared.delivery = s.delivery ∨
      ∀ m segment, a.stage ≠ .works m (some segment) := by
  cases a with
  | start pool pc => exact .inr (.inr fun m segment => by cases pc <;> exact nofun)
  | stop call pc => exact .inr (.inr fun m segment => by cases pc <;> exact nofun)
  | worker m pc =>
    cases pc with
    | idle => exact .inr (.inr fun m segment => nofun)
    | enqueue c segment =>
      cases h
      exact .inr (.inl rfl)
    | deliver segment => exact .inl rfl
  | _ => exact .inr (.inr fun m segment => nofun)

/-- Starts and stops take turns. -/
theorem deliveryTurns : Tasks.Turns (Tasks.Reaches program gapless start) program gapless
    (fun a => a.stage.underWay) (fun s => s.delivery.Rest) fun s a => s.delivery.Fits a.stage where
  free {a} hfree := by cases a <;> first | rfl | cases hfree
  call {c t k s' a} _ _ hbegins := by
    obtain ⟨hdelivery, hstage⟩ := delivery_begins hbegins
    rw [hdelivery, hstage]
    exact ⟨rfl, id, fun _ _ => id⟩
  spawn hstep hspawned := by
    rcases stage_spawned hstep hspawned with ⟨m, -, -, -, hchild⟩ | haway
    · rw [hchild]
      rfl
    · rw [haway]
      rfl
  alone {c t child u env move} hreach hallow hstep hbefore hafter hu := by
    have hdelivery := deliveryStep_of_reaches hreach hallow hstep
    have hother := (hallow.2 u hu).1 (calls_of_step hstep hdelivery hafter)
    rcases hunder : (c.tasks u).stage.underWay with _ | _
    · rfl
    · exact absurd (hother.symm.trans (calls_of_underWay hunder)) nofun
  enter hreach hallow hstep hbefore hafter hrest :=
    (deliveryStep_of_reaches hreach hallow hstep).enter hbefore hafter hrest
  within hreach hallow hstep hbefore hafter hfits :=
    (deliveryStep_of_reaches hreach hallow hstep).within hbefore hafter hfits
  leave hreach hallow hstep hbefore hafter hfits :=
    (deliveryStep_of_reaches hreach hallow hstep).leave hbefore hafter hfits
  outside {c t child env move} hreach hallow hstep hbefore hafter := by
    have hdelivery := deliveryStep_of_reaches hreach hallow hstep
    have hworks : ∀ m segment, (c.tasks t).stage = .works m (some segment) →
        c.shared.delivery.worker m = .running ∧ segment.session = m := by
      intro m segment hstage
      obtain ⟨hrunning, hsegment⟩ := ((hold_employed hreach).own t).2.2 m _ hstage
      exact ⟨hrunning, hsegment segment rfl⟩
    refine ⟨hdelivery.outsideRest hbefore hafter hworks, fun u hu _ hfits => ?_⟩
    rcases delivers_of_step hstep with hdelivers | hsame | hnone
    · refine hdelivery.outside hbefore hafter hworks (fun _ _ _ other hreplayed => ?_) hfits
      have hnot := (hallow.2 u hu).2 hdelivers
      exact absurd (hnot.symm.trans (putsBack_of_stage hreplayed)) nofun
    · rw [hsame]
      exact hfits
    · exact hdelivery.outside hbefore hafter hworks
        (fun m segment hstage => absurd hstage (hnone m segment)) hfits

end Turns

/-! ## Accounts -/

/-- A task finds the segments as it needs them, and a worker its own manager. -/
def placed : Tasks.Assertions Service ServiceTask where
  shared _ := True
  own s a := s.delivery.Fits a.stage ∧ ∀ m inflight, a.stage = .works m inflight →
    ∀ c, s.delivery.manager = some c → c = m
  pair _ _ := True

theorem hold_deliveryTurns {c : Tasks.Config Service ServiceTask}
    (h : Tasks.Reaches program gapless start c) :
    Tasks.Turns.Hold (fun a => a.stage.underWay) (fun s => s.delivery.Rest)
      (fun s a => s.delivery.Fits a.stage) c :=
  deliveryTurns.hold_of_reaches (fun _ => id) (fun _ => rfl) ⟨rfl, nofun, nofun⟩ h

theorem hold_placed {c : Tasks.Config Service ServiceTask}
    (h : Tasks.Reaches program gapless start c) : placed.Hold c := by
  have hturns := hold_deliveryTurns h
  refine ⟨trivial, fun t => ⟨?_, fun m inflight hstage other hmanager => ?_⟩, fun _ _ _ => trivial⟩
  · rcases hunder : (c.tasks t).stage.underWay with _ | _
    · generalize (c.tasks t).stage = g at hunder
      cases g <;> trivial
    · exact hturns.fits t hunder
  · obtain ⟨hrunning, -⟩ := ((hold_employed h).own t).2.2 m inflight hstage
    by_cases hidle : ∃ u, (c.tasks u).stage.underWay = true
    · obtain ⟨u, hunder⟩ := hidle
      exact (hturns.fits u hunder).manager hunder hrunning hmanager
    · have hrest := hturns.rest fun u => by simpa using not_exists.mp hidle u
      exact Option.some.inj (hmanager.symm.trans (hrest.running m hrunning))

/-- The segments are accounted for, and each worker has delivered what it does not have in its
hands. -/
def accounts : Tasks.Assertions Service ServiceTask where
  shared s := s.delivery.Accounted
  own s a := s.delivery.Delivers a.stage
  pair _ _ := True

theorem stable_accounts :
    Tasks.Assertions.Stable (employed.and placed) accounts program gapless where
  symm _ := trivial
  call {k s s' a} _ hs hbegins := by
    obtain ⟨hdelivery, hstage⟩ := delivery_begins hbegins
    refine ⟨?_, ?_⟩
    · show s'.delivery.Accounted
      rw [hdelivery]
      exact hs.2
    · show s'.delivery.Delivers a.stage
      rw [hstage]
      trivial
  callBeside {k s s' a b} _ _ _ hb hbegins := by
    obtain ⟨hdelivery, -⟩ := delivery_begins hbegins
    refine ⟨?_, trivial⟩
    show s'.delivery.Delivers b.stage
    rw [hdelivery]
    exact hb.2
  step {env s a move} htaken := by
    obtain ⟨hallowed, ⟨⟨⟨hs, -⟩, -⟩, haccounted⟩, ⟨⟨⟨hown, -, hworks⟩, hfits, hplace⟩, hdelivers⟩,
      heq⟩ := htaken
    have hstep := deliveryStep_of_gapless heq hallowed hs hown
    exact ⟨hstep.accounted haccounted hfits hdelivers hworks hplace,
      hstep.delivered hdelivers (fun m inflight hstage => (hworks m inflight hstage).2) hplace⟩
  beside {env s a b move} hbeside := by
    obtain ⟨⟨hallowed, ⟨⟨⟨hs, -⟩, -⟩, -⟩, ⟨⟨⟨hown, -, hworks⟩, hfits, hplace⟩, -⟩, heq⟩, -,
      ⟨⟨⟨-, hknown, -⟩, -⟩, hdelivers⟩, ⟨⟨⟨-, hapart⟩, -⟩, -⟩⟩ := hbeside
    have hstep := deliveryStep_of_gapless heq hallowed hs hown
    exact ⟨hstep.deliversBeside hfits hknown hapart
      (fun m inflight hstage => (hworks m inflight hstage).2) hplace hdelivers, trivial⟩
  spawn {env s a child move} htaken hspawned := by
    obtain ⟨-, ⟨-, haccounted⟩, ⟨⟨-, hfits, -⟩, -⟩, heq⟩ := htaken
    refine ⟨?_, trivial⟩
    show move.shared.delivery.Delivers child.stage
    rcases stage_spawned heq hspawned with ⟨m, hstage, hdelivery, -, hchild⟩ | haway
    · -- before its worker, nothing of a session was published
      rw [hstage] at hfits
      obtain ⟨-, -, hquiet⟩ := hfits
      rw [hchild, hdelivery]
      show (s.delivery.published m).Perm (s.delivery.arrived m ++ [])
      rw [List.append_nil]
      exact haccounted.done m (hquiet m)
    · rw [haway]
      trivial
  spawnBeside _ _ := trivial

theorem hold_accounts {c : Tasks.Config Service ServiceTask}
    (h : Tasks.Reaches program gapless start c) : accounts.Hold c := by
  refine stable_accounts.of_reaches (fun _ hreach => (hold_employed hreach).and
    (hold_placed hreach)) ?_ h
  exact ⟨⟨nofun, fun _ => rfl, fun _ _ => .nil⟩, fun _ => trivial, fun _ _ _ => trivial⟩

/-! ## What is kept -/

/-- Every segment is kept in its own session. -/
structure KeepsSegments (c : Tasks.Config Service ServiceTask) : Prop where
  /-- no manager has a segment of another session -/
  own : ∀ m, ∀ segment ∈ (c.shared.sessions m).segments, segment.session = m
  /-- once the manager of a session was taken for the final save, that is, it is not in the slot and
  no stop will put it back, it has each segment published for its session exactly once -/
  once : ∀ m, c.shared.manager ≠ some m → (∀ t, (c.tasks t).role ≠ .stopCarries m) →
    ∀ segment ∈ (c.shared.sessions m).published,
      (c.shared.sessions m).segments.count segment = 1

/-- Where a manager is neither in the slot nor will be put back, its worker does not run and nothing
of it is buffered. -/
theorem settled_of_gone {c : Tasks.Config Service ServiceTask}
    (h : Tasks.Reaches program gapless start c) (hslot : c.shared.manager ≠ some m)
    (hcarries : ∀ t, (c.tasks t).role ≠ .stopCarries m) :
    c.shared.delivery.worker m ≠ .running ∧
      (c.shared.delivery.pending.filter fun segment => segment.session = m) = [] := by
  have hturns := hold_deliveryTurns h
  by_cases hidle : ∃ u, (c.tasks u).stage.underWay = true
  · obtain ⟨u, hunder⟩ := hidle
    exact (hturns.fits u hunder).gone hunder hslot (fun hstage => hcarries u (role_of_stage hstage))
  · have hrest := hturns.rest fun u => by simpa using not_exists.mp hidle u
    exact hrest.gone hslot

/-- **Every segment is kept.** While starts and stops follow one another and no gap is met, every
segment is added to the manager of its own session, once and before that is saved. -/
theorem keepsSegments_of_reaches {c : Tasks.Config Service ServiceTask}
    (h : Tasks.Reaches program gapless start c) : KeepsSegments c := by
  have haccounted : c.shared.delivery.Accounted := (hold_accounts h).shared
  refine ⟨haccounted.own, fun m hslot hcarries segment hsegment => ?_⟩
  obtain ⟨hidle, hpending⟩ := settled_of_gone h hslot hcarries
  have harrived : c.shared.delivery.arrived m = (c.shared.sessions m).segments := by
    rw [Delivery.arrived, hpending, List.append_nil]
    rfl
  have hall : (c.shared.sessions m).published.Perm (c.shared.sessions m).segments :=
    harrived ▸ haccounted.done m hidle
  have hnodup : (c.shared.sessions m).published.Nodup := by
    refine List.Nodup.of_map Segment.sequence ?_
    have hnumbered : (c.shared.sessions m).published.map Segment.sequence = List.range _ :=
      haccounted.numbered m
    rw [hnumbered]
    exact List.nodup_range
  rw [← hall.count_eq]
  exact List.count_eq_one_of_mem hnodup hsegment

/-! ### Segments during a stop -/

section Runs

instance (k : ServiceCall) (s : Service) : Decidable (successive.call k s) :=
  inferInstanceAs (Decidable True)

instance (k : ServiceCall) (b : ServiceTask) : Decidable (successive.callBeside k b) :=
  inferInstanceAs (Decidable True)

instance (env : Env) (s : Service) (a : ServiceTask) : Decidable (successive.step env s a) :=
  inferInstanceAs (Decidable True)

instance (env : Env) (s : Service) (a b : ServiceTask) :
    Decidable (successive.stepBeside env s a b) :=
  inferInstanceAs (Decidable (calls a = true → calls b = false))

instance (k : ServiceCall) (s : Service) : Decidable (gapless.call k s) :=
  inferInstanceAs (Decidable True)

instance (k : ServiceCall) (b : ServiceTask) : Decidable (gapless.callBeside k b) :=
  inferInstanceAs (Decidable True)

instance (env : Env) (s : Service) (a : ServiceTask) : Decidable (gapless.step env s a) :=
  inferInstanceAs (Decidable ((publishes env a = true → s.subscriber.isSome = true) ∧
    (drains a = true → env.ok = true)))

instance (env : Env) (s : Service) (a b : ServiceTask) :
    Decidable (gapless.stepBeside env s a b) :=
  inferInstanceAs (Decidable ((calls a = true → calls b = false) ∧
    (delivers a = true → putsBack b = false)))

end Runs

/-- The worker of the first session finishes, and its stop goes on to its end. -/
def drainsToEnd : List (Tasks.Label Env ServiceCall) := .run 1 ⟨false, true, 0⟩ 9 :: steps 2 9 9

/-- A recording with two segments, the second one delivered while the stop flushes. -/
def segmentWhileFlushing : List (Tasks.Label Env ServiceCall) :=
  firstStart ++ steps 1 9 3 ++ .call 2 (.stop false) :: steps 2 9 6 ++ steps 1 9 3 ++
    steps 2 9 7 ++ drainsToEnd

/-- A recording whose only segment is delivered between the replay and the putting back, and a
second recording up to its replay. -/
def segmentAfterReplay : List (Tasks.Label Env ServiceCall) :=
  firstStart ++ firstStop ++ steps 1 9 3 ++ steps 2 9 3 ++ drainsToEnd ++
    .call 3 (.start false) :: steps 3 4 18 ++ .call 5 (.stop false) :: steps 5 9 10

/-- Both segments are kept. -/
theorem keepsSegments_whileFlushing :
    ∃ c, program.runBelow gapless 10 start segmentWhileFlushing = some c ∧
      c.shared.manager = none ∧ (c.shared.sessions 0).published = [⟨0, 0⟩, ⟨0, 1⟩] ∧
      KeepsSegments c := by
  obtain ⟨c, hrun, hc⟩ := Option.map_eq_some_iff.mp
    (show (program.runBelow gapless 10 start segmentWhileFlushing).map (fun c =>
      (c.shared.manager, (c.shared.sessions 0).published)) = some (none, [⟨0, 0⟩, ⟨0, 1⟩]) from rfl)
  obtain ⟨hmanager, hpublished⟩ := Prod.mk.inj hc
  have hreach : Tasks.Reaches program gapless start c :=
    .of_runBelow (fun _ => trivial) (fun _ _ _ => by exact ⟨fun _ => rfl, fun _ => rfl⟩)
      (fun _ _ => rfl) .refl hrun
  exact ⟨c, hrun, hmanager, hpublished, keepsSegments_of_reaches hreach⟩

/-- In general a segment ends up with the manager of the next session. -/
theorem not_keepsSegments_afterReplay :
    ¬∀ c, Tasks.Reaches program successive start c → KeepsSegments c := by
  intro h
  obtain ⟨c, hrun, hsegments⟩ := Option.map_eq_some_iff.mp
    (show (program.runBelow successive 10 start segmentAfterReplay).map (fun c =>
      (c.shared.sessions 1).segments) = some [⟨0, 0⟩] from rfl)
  have hreach : Tasks.Reaches program successive start c :=
    .of_runBelow (fun _ => trivial) (fun _ _ _ => by exact fun _ => rfl) (fun _ _ => rfl) .refl hrun
  have hown := (h c hreach).own 1 ⟨0, 0⟩ (by rw [hsegments]; exact List.mem_cons_self)
  cases hown

end RecordingService

end MeetilyLocal
