import MeetilyLocal.Audio.PlaybackSteps

/-!
# One clip at a time

In a run in which no call comes between the steps of another, at most one sink plays while no call
is in progress, a stop leaves silent what was played before it, and an ended event is about a clip
that has ended by itself (`oneClip_of_reaches`).

A sink that plays is in `current` or in the hands of a call; that is what the order of the steps is
needed for.
-/

namespace MeetilyLocal

namespace Playback

open Tasks

variable {s s' : Playback} {a b : PlaybackTask} {ok : Bool} {move : Move Playback PlaybackTask}
  {c : Config Playback PlaybackTask} {g n : ℕ}
  {d : Discipline Playback PlaybackTask Bool PlaybackCall}

/-! ## The sinks that were made -/

/-- The sink that a play is about to make. -/
def unmade : PlaybackTask → Option ℕ
  | .lockTake (.play g) | .take (.play g) | .stopPrev (.play g) _ | .create g => some g
  | _ => none

/-- The sink of a play that has made it and has not returned. -/
def unreturned : PlaybackTask → Option ℕ
  | .lockStore g | .store g | .spawn g => some g
  | _ => none

/-- The sink that a watcher waits for. -/
def watched : PlaybackTask → Option ℕ
  | .sleep g | .load g => some g
  | _ => none

/-- The clips of a stop that calls `player`. -/
def callerClips : PlayerCaller → List ℕ
  | .stop _ clips => clips
  | .play | .watch _ => []

/-- The clips of a stop that looks into `current`. -/
def takerClips : Taker → List ℕ
  | .stop _ clips => clips
  | .play _ => []

/-- The clips whose play had returned when a stop started. -/
def stopClips : PlaybackTask → List ℕ
  | .stopBump clips => clips
  | .player caller _ => callerClips caller
  | .lockTake k | .take k | .stopPrev k _ => takerClips k
  | _ => []

theorem number_of_unmade (h : unmade a = some g) : number a = some g := by
  cases a with
  | lockTake k | take k | stopPrev k => cases k <;> first | exact h | cases h
  | create => exact h
  | _ => cases h

theorem number_of_unreturned (h : unreturned a = some g) : number a = some g := by
  cases a with
  | lockStore | store | spawn => exact h
  | _ => cases h

@[simp] theorem unmade_withPlayer (caller : PlayerCaller) :
    unmade (withPlayer caller) = none := by cases caller <;> rfl

@[simp] theorem unmade_withoutPlayer (s : Playback) (caller : PlayerCaller) :
    unmade (withoutPlayer s caller).2 = none := by cases caller <;> rfl

/-- The sink that is about to be made stays, or is that of a new generation. -/
theorem unmade_cases (h : Steps s a move) :
    unmade move.task = unmade a ∨ unmade move.task = none ∨
      unmade move.task = some (s.generation + 1) := by
  cases h with
  | found | foundAgain | set => exact .inr (.inl (unmade_withPlayer _))
  | notStarted => exact .inr (.inl (unmade_withoutPlayer _ _))
  | playBump => exact .inr (.inr rfl)
  | @lockTake k => cases k <;> exact .inl rfl
  | @take k => cases k <;> exact .inl rfl
  | @takeNone k => cases k <;> exact .inl rfl
  | @stopPrev k => cases k <;> exact .inl rfl
  | _ => exact .inr (.inl rfl)

@[simp] theorem unreturned_withPlayer (caller : PlayerCaller) :
    unreturned (withPlayer caller) = none := by cases caller <;> rfl

@[simp] theorem unreturned_withoutPlayer (s : Playback) (caller : PlayerCaller) :
    unreturned (withoutPlayer s caller).2 = none := by cases caller <;> rfl

@[simp] theorem unreturned_afterTake (s : Playback) (k : Taker) :
    unreturned (afterTake s k).2 = none := by cases k <;> rfl

/-- A play that has not returned had made its sink before, or has just made it. -/
theorem unreturned_cases (h : Steps s a move) :
    (unreturned move.task = unreturned a ∧ move.shared.returned = s.returned) ∨
      unreturned move.task = none ∨
      ∃ g, unreturned move.task = some g ∧ a = .create g ∧ move.shared.returned = s.returned := by
  cases h with
  | create => exact .inr (.inr ⟨_, rfl, rfl, rfl⟩)
  | lockStore | store => exact .inl ⟨rfl, rfl⟩
  | found | foundAgain | set => exact .inr (.inl (unreturned_withPlayer _))
  | notStarted => exact .inr (.inl (unreturned_withoutPlayer _ _))
  | takeNone | stopPrev => exact .inr (.inl (unreturned_afterTake _ _))
  | _ => exact .inr (.inl rfl)

theorem watched_of_step (h : Steps s a move) (hwatched : watched move.task = some g) :
    watched a = some g := by
  cases h with
  | wake => exact hwatched
  | @found caller | @foundAgain caller | @set caller | @notStarted caller =>
    cases caller <;> cases hwatched
  | @takeNone k | @stopPrev k => cases k <;> cases hwatched
  | _ => cases hwatched

theorem stopClips_of_step (h : Steps s a move) (hclip : g ∈ stopClips move.task) :
    g ∈ stopClips a := by
  cases h with
  | @found caller | @foundAgain caller | @set caller | @notStarted caller =>
    cases caller <;> first | exact hclip | cases hclip
  | @takeNone k | @stopPrev k => cases k <;> cases hclip
  | missing | lockInit | missingAgain | started | stopBump | lockTake | take => exact hclip
  | _ => cases hclip

/-- What becomes of a sink, be it by a step or because its clip ends. -/
inductive SinkChange : Option SinkState → Option SinkState → Prop where
  /-- nothing -/
  | same {state : Option SinkState} : SinkChange state state
  /-- it is made -/
  | made : SinkChange none (some .playing)
  /-- its clip ends -/
  | ended {latest : Bool} : SinkChange (some .playing) (some (.ended latest))
  /-- it is stopped -/
  | stopped : SinkChange (some .playing) (some .stopped)

theorem SinkChange.ne_none {before after : Option SinkState} (h : SinkChange before after)
    (hbefore : before ≠ none) : after ≠ none := by
  cases h
  · exact hbefore
  · exact absurd rfl hbefore
  · exact nofun
  · exact nofun

theorem SinkChange.ended_true {before after : Option SinkState} (h : SinkChange before after)
    (hbefore : before = some (.ended true)) : after = some (.ended true) := by
  cases h
  · exact hbefore
  · cases hbefore
  · cases hbefore
  · cases hbefore

theorem SinkChange.playing {before after : Option SinkState} (h : SinkChange before after)
    (hafter : after = some .playing) : before = some .playing ∨ before = none := by
  cases h
  · exact .inl hafter
  · exact .inr rfl
  · cases hafter
  · cases hafter

/-- What is so of the sinks. -/
structure MadeShared (s : Playback) : Prop where
  /-- they are of generations that there were -/
  bounded : ∀ g, s.sinks g ≠ none → g ≤ s.generation
  /-- there is none without a player -/
  player : s.player = false → ∀ g, s.sinks g = none
  /-- what is in `current` was made -/
  current : ∀ g, s.current = some g → s.sinks g ≠ none
  /-- a play that has returned made a sink -/
  returned : ∀ g ∈ s.returned, s.sinks g ≠ none

/-- What is so of the sinks of a task. -/
structure MadeOwn (s : Playback) (a : PlaybackTask) : Prop where
  /-- what is about to be made was not made -/
  unmade : ∀ g, unmade a = some g → s.sinks g = none
  /-- a play that has not returned made its sink -/
  unreturned : ∀ g, unreturned a = some g → s.sinks g ≠ none ∧ g ∉ s.returned
  /-- what is watched was made -/
  watched : ∀ g, watched a = some g → s.sinks g ≠ none
  /-- a play had returned -/
  stopClips : ∀ g ∈ stopClips a, g ∈ s.returned

/-- The sinks that were made. -/
def made : Assertions Playback PlaybackTask where
  shared := MadeShared
  own := MadeOwn
  pair _ _ := True

/-- A step changes the sinks as it may. -/
theorem sinkChange_of_steps (h : Steps s a move) (hown : MadeOwn s a) (g : ℕ) :
    SinkChange (s.sinks g) (move.shared.sinks g) := by
  obtain hsame | ⟨hmade, rfl, -⟩ | ⟨hstopped, hplaying, -⟩ := sinks_cases h g
  · exact hsame ▸ .same
  · exact hmade ▸ (hown.unmade g rfl) ▸ .made
  · exact hstopped ▸ hplaying ▸ .stopped

/-- So does a call. -/
theorem sinkChange_of_begins {call : PlaybackCall} (h : program.begins call s = some (s', a))
    (g : ℕ) : SinkChange (s.sinks g) (s'.sinks g) := by
  obtain ⟨rfl, -⟩ | ⟨g', hplaying, -, rfl⟩ := begins_cases h
  · exact .same
  · rcases eq_or_ne g g' with rfl | hg
    · simp only [Function.update_self, hplaying]
      exact .ended
    · simp only [Function.update_of_ne hg]
      exact .same

theorem generation_le (h : Steps s a move) : s.generation ≤ move.shared.generation := by
  obtain ⟨hgen, -⟩ | ⟨hgen, -⟩ := generation_cases h <;> lia

theorem mem_returned (h : Steps s a move) (hg : g ∈ s.returned) : g ∈ move.shared.returned := by
  obtain hsame | ⟨g', hreturned, -⟩ := returned_cases h
  · exact hsame ▸ hg
  · exact hreturned ▸ List.mem_cons_of_mem _ hg

theorem madeShared_step (h : Steps s a move) (hnumber : ∀ n, number a = some n → n ≤ s.generation)
    (hplayer : hasPlayer a = true → s.player = true) (hshared : MadeShared s)
    (hown : MadeOwn s a) : MadeShared move.shared where
  bounded g hg := by
    obtain hsame | ⟨-, rfl, -⟩ | ⟨-, hplaying, -⟩ := sinks_cases h g
    · exact Nat.le_trans (hshared.bounded g (hsame ▸ hg)) (generation_le h)
    · exact Nat.le_trans (hnumber g rfl) (generation_le h)
    · exact Nat.le_trans (hshared.bounded g (by simp [hplaying])) (generation_le h)
  player hnone g := by
    obtain hsame | ⟨hset, -⟩ := player_cases h
    · have hfree := hshared.player (hsame ▸ hnone)
      obtain hsink | ⟨-, rfl, -⟩ | ⟨-, hplaying, -⟩ := sinks_cases h g
      · exact hsink.trans (hfree g)
      · rw [hsame, hplayer rfl] at hnone
        cases hnone
      · rw [hfree g] at hplaying
        cases hplaying
    · rw [hset] at hnone
      cases hnone
  current g hg := by
    have hchange := sinkChange_of_steps h hown g
    obtain hsame | ⟨hnone, -⟩ | ⟨g', hstored, rfl⟩ | ⟨g', hnone, -⟩ := current_cases h
    · exact hchange.ne_none (hshared.current g (hsame ▸ hg))
    · rw [hnone] at hg
      cases hg
    · rw [hstored] at hg
      cases hg
      exact hchange.ne_none (hown.unreturned g rfl).1
    · rw [hnone] at hg
      cases hg
  returned g hg := by
    have hchange := sinkChange_of_steps h hown g
    obtain hsame | ⟨g', hreturned, rfl⟩ := returned_cases h
    · exact hchange.ne_none (hshared.returned g (hsame ▸ hg))
    · rw [hreturned] at hg
      obtain rfl | hbefore := List.mem_cons.mp hg
      · exact hchange.ne_none (hown.unreturned g rfl).1
      · exact hchange.ne_none (hshared.returned g hbefore)

theorem madeOwn_step (h : Steps s a move) (hshared : MadeShared s) (hown : MadeOwn s a) :
    MadeOwn move.shared move.task where
  unmade g hg := by
    have hnone : s.sinks g = none := by
      obtain hsame | hnone | hnew := unmade_cases h
      · exact hown.unmade g (hsame ▸ hg)
      · rw [hnone] at hg
        cases hg
      · rw [hnew] at hg
        cases hg
        by_contra hsome
        exact absurd (hshared.bounded _ hsome) (by lia)
    obtain hsame | ⟨-, -, htask⟩ | ⟨-, hplaying, -⟩ := sinks_cases h g
    · exact hsame.trans hnone
    · rw [htask] at hg
      cases hg
    · rw [hnone] at hplaying
      cases hplaying
  unreturned g hg := by
    have hchange := sinkChange_of_steps h hown g
    obtain ⟨hsame, hreturned⟩ | hnone | ⟨g', hmade, rfl, hreturned⟩ := unreturned_cases h
    · obtain ⟨hsome, hnot⟩ := hown.unreturned g (hsame ▸ hg)
      exact ⟨hchange.ne_none hsome, hreturned ▸ hnot⟩
    · rw [hnone] at hg
      cases hg
    · rw [hmade] at hg
      cases hg
      have hnone : s.sinks g = none := hown.unmade g rfl
      refine ⟨?_, fun hmem => hshared.returned g (hreturned ▸ hmem) hnone⟩
      cases h with
      | create => simp
      | notCreated => cases hmade
  watched g hg := (sinkChange_of_steps h hown g).ne_none (hown.watched g (watched_of_step h hg))
  stopClips g hg := mem_returned h (hown.stopClips g (stopClips_of_step h hg))

/-- A step keeps what is so of the sinks of another task. -/
theorem madeOwn_beside (h : Steps s a move) (hpair : ∀ n, number a = some n → number b ≠ some n)
    (hown : MadeOwn s a) (hother : MadeOwn s b) : MadeOwn move.shared b where
  unmade g hg := by
    have hnone : s.sinks g = none := hother.unmade g hg
    obtain hsame | ⟨-, rfl, -⟩ | ⟨-, hplaying, -⟩ := sinks_cases h g
    · exact hsame.trans hnone
    · exact absurd (number_of_unmade hg) (hpair g rfl)
    · rw [hnone] at hplaying
      cases hplaying
  unreturned g hg := by
    obtain ⟨hsome, hnot⟩ := hother.unreturned g hg
    refine ⟨(sinkChange_of_steps h hown g).ne_none hsome, fun hmem => ?_⟩
    obtain hsame | ⟨g', hreturned, rfl⟩ := returned_cases h
    · exact hnot (hsame ▸ hmem)
    · rw [hreturned] at hmem
      obtain rfl | hbefore := List.mem_cons.mp hmem
      · exact absurd (number_of_unreturned hg) (hpair g rfl)
      · exact hnot hbefore
  watched g hg := (sinkChange_of_steps h hown g).ne_none (hother.watched g hg)
  stopClips g hg := mem_returned h (hother.stopClips g hg)

theorem made_stable : Assertions.Stable (numbered.and played) made program d where
  symm _ := trivial
  call := by
    intro k s s' a _ hshared hbegins
    have hchange := sinkChange_of_begins hbegins
    obtain ⟨rfl, rfl | rfl⟩ | ⟨g, hplaying, rfl, rfl⟩ := begins_cases hbegins
    · exact ⟨hshared.2, nofun, nofun, nofun, nofun⟩
    · exact ⟨hshared.2, nofun, nofun, nofun, fun g hg => hg⟩
    · refine ⟨⟨fun g' hg' => hshared.2.bounded g' fun hnone => ?_, fun hplayer => ?_,
        fun g' hg' => (hchange g').ne_none (hshared.2.current g' hg'),
        fun g' hg' => (hchange g').ne_none (hshared.2.returned g' hg')⟩, nofun, nofun, nofun, nofun⟩
      · rcases eq_or_ne g' g with rfl | hne
        · rw [hnone] at hplaying
          cases hplaying
        · exact hg' ((Function.update_of_ne hne _ _).trans hnone)
      · rw [hshared.2.player hplayer g] at hplaying
        cases hplaying
  callBeside := by
    intro k s s' a b _ _ hshared hown hbegins
    have hchange := sinkChange_of_begins hbegins
    refine ⟨?_, trivial⟩
    obtain ⟨rfl, -⟩ | ⟨g, hplaying, rfl, rfl⟩ := begins_cases hbegins
    · exact hown.2
    · refine ⟨fun g' hg' => ?_, fun g' hg' => ?_,
        fun g' hg' => (hchange g').ne_none (hown.2.watched g' hg'), hown.2.stopClips⟩
      · have hnone := hown.2.unmade g' hg'
        rcases eq_or_ne g' g with rfl | hne
        · rw [hnone] at hplaying
          cases hplaying
        · exact (Function.update_of_ne hne _ _).trans hnone
      · obtain ⟨hsome, hnot⟩ := hown.2.unreturned g' hg'
        exact ⟨(hchange g').ne_none hsome, hnot⟩
  step := by
    intro ok s a move htaken
    have h := steps_of_step htaken.eq
    exact ⟨madeShared_step h htaken.own.1.1 htaken.own.1.2.1 htaken.shared.2 htaken.own.2,
      madeOwn_step h htaken.shared.2 htaken.own.2⟩
  beside := by
    intro ok s a b move hbeside
    exact ⟨madeOwn_beside (steps_of_step hbeside.eq) hbeside.pair.1.1 hbeside.own.2
      hbeside.ownOther.2, trivial⟩
  spawn := by
    intro ok s a child move htaken hspawned
    have h := steps_of_step htaken.eq
    have hown := htaken.own.2
    refine ⟨?_, trivial⟩
    cases h with
    | @spawn g =>
      cases hspawned
      refine ⟨nofun, nofun, fun g' hg' => ?_, nofun⟩
      cases hg'
      exact (hown.unreturned g rfl).1
    | _ => cases hspawned
  spawnBeside _ _ := trivial

/-! ## The sinks that are over -/

/-- The clip of a watcher that found it of the latest generation. -/
def endedClip : PlaybackTask → Option ℕ
  | .player (.watch g) _ | .lockClear g | .clear g | .emit g => some g
  | _ => none

theorem endedClip_cases (h : Steps s a move) (hclip : endedClip move.task = some g) :
    endedClip a = some g ∨ (a = .load g ∧ s.generation = g) := by
  cases h with
  | @found caller | @foundAgain caller | @set caller | @notStarted caller
  | @missing caller | @lockInit caller | @missingAgain caller | @started caller =>
    cases caller
    · cases hclip
    · cases hclip
    · exact .inl hclip
  | @takeNone k | @stopPrev k => cases k <;> cases hclip
  | latest hlatest =>
    cases hclip
    exact .inr ⟨rfl, hlatest⟩
  | lockClear | clear => exact .inl hclip
  | _ => cases hclip

theorem events_cases (h : Steps s a move) :
    move.shared.events = s.events ∨ ∃ g, move.shared.events = g :: s.events ∧ a = .emit g := by
  cases h with
  | emit => exact .inr ⟨_, rfl, rfl⟩
  | @notStarted caller => cases caller <;> exact .inl rfl
  | @takeNone k => cases k <;> exact .inl rfl
  | @stopPrev k prev stopped hstopped =>
    have hevents : stopped.events = s.events := by rw [stopped_eq hstopped]
    cases k <;> exact .inl hevents
  | _ => exact .inl rfl

/-- Once the latest call has looked into `current`, that stays so until the next. -/
theorem latestTook_cases (h : Steps s a move) :
    move.shared.latestTook = s.latestTook ∨ move.shared.latestTook = false ∨
      (∃ k, a = .take k ∧ move.shared.current = none) ∨ ∃ caller, a = .player caller .create := by
  cases h with
  | playBump | stopBump => exact .inr (.inl rfl)
  | take => exact .inr (.inr (.inl ⟨_, rfl, rfl⟩))
  | @takeNone k => cases k <;> exact .inr (.inr (.inl ⟨_, rfl, rfl⟩))
  | notStarted => exact .inr (.inr (.inr ⟨_, rfl⟩))
  | @stopPrev k prev stopped hstopped =>
    have htook : stopped.latestTook = s.latestTook := by rw [stopped_eq hstopped]
    cases k <;> exact .inl htook
  | _ => exact .inl rfl

/-- What is so of the sinks that do not play, and of the one in `current`. -/
structure OverShared (s : Playback) : Prop where
  /-- a sink that was stopped is not of the latest generation -/
  stopped : ∀ g, s.sinks g = some .stopped → g < s.generation
  /-- nor is one whose clip ended when it was not -/
  outdated : ∀ g, s.sinks g = some (.ended false) → g < s.generation
  /-- what plays in `current` is of the latest generation, or the latest call will see it -/
  current : ∀ g, s.current = some g → s.sinks g = some .playing →
    g = s.generation ∨ s.latestTook = false
  /-- an event is about a clip that ended by itself -/
  events : ∀ g ∈ s.events, s.sinks g = some (.ended true)

/-- What is so of the sinks that a task is done with. -/
structure OverOwn (s : Playback) (a : PlaybackTask) : Prop where
  /-- what was taken is not in `current`, nor of the latest generation while it plays -/
  taken : ∀ k g, a = .stopPrev k g → s.current = none ∧ s.sinks g ≠ none ∧
    (s.sinks g = some .playing → g < s.generation)
  /-- what a watcher has slept for does not play -/
  woken : ∀ g, a = .load g → s.sinks g ≠ some .playing
  /-- what is about to be announced ended by itself -/
  ended : ∀ g, endedClip a = some g → s.sinks g = some (.ended true)

/-- The sinks that are over. -/
def overClips : Assertions Playback PlaybackTask where
  shared := OverShared
  own := OverOwn
  pair _ _ := True

/-- A sink that was made and does not play will not. -/
theorem SinkChange.ne_playing {before after : Option SinkState} (h : SinkChange before after)
    (hmade : before ≠ none) (hsilent : before ≠ some .playing) : after ≠ some .playing := by
  intro hafter
  obtain hbefore | hbefore := h.playing hafter
  · exact hsilent hbefore
  · exact hmade hbefore

theorem overShared_step (h : Steps s a move) (hallowed : orderly.step ok s a)
    (hcreates : creates a = true → s.player = false) (hmade : MadeShared s) (hmadeOwn : MadeOwn s a)
    (hshared : OverShared s) (hown : OverOwn s a) : OverShared move.shared where
  stopped g hg := by
    obtain hsame | ⟨hplaying, -⟩ | ⟨-, hplaying, k, rfl⟩ := sinks_cases h g
    · exact Nat.lt_of_lt_of_le (hshared.stopped g (hsame ▸ hg)) (generation_le h)
    · rw [hplaying] at hg
      cases hg
    · obtain ⟨-, -, hold⟩ := hown.taken k g rfl
      exact Nat.lt_of_lt_of_le (hold hplaying) (generation_le h)
  outdated g hg := by
    obtain hsame | ⟨hplaying, -⟩ | ⟨hstopped, -⟩ := sinks_cases h g
    · exact Nat.lt_of_lt_of_le (hshared.outdated g (hsame ▸ hg)) (generation_le h)
    · rw [hplaying] at hg
      cases hg
    · rw [hstopped] at hg
      cases hg
  current g hg hplaying := by
    obtain hsame | ⟨hnone, -⟩ | ⟨g', hstored, rfl⟩ | ⟨g', hnone, -⟩ := current_cases h
    · have hcurrent : s.current = some g := hsame ▸ hg
      have hbefore : s.sinks g = some .playing :=
        ((sinkChange_of_steps h hmadeOwn g).playing hplaying).resolve_right
          (hmade.current g hcurrent)
      obtain hsame' | hfalse | ⟨k, -, hnone⟩ | ⟨caller, rfl⟩ := latestTook_cases h
      · obtain ⟨hgen, -⟩ | ⟨-, -, hfalse⟩ := generation_cases h
        · exact hgen ▸ hsame' ▸ hshared.current g hcurrent hbefore
        · exact .inr hfalse
      · exact .inr hfalse
      · rw [hnone] at hg
        cases hg
      · rw [hmade.player (hcreates rfl) g] at hbefore
        cases hbefore
    · rw [hnone] at hg
      cases hg
    · rw [hstored] at hg
      cases hg
      cases h
      exact hallowed.2
    · rw [hnone] at hg
      cases hg
  events g hg := by
    have hchange := sinkChange_of_steps h hmadeOwn g
    obtain hsame | ⟨g', hevents, rfl⟩ := events_cases h
    · exact hchange.ended_true (hshared.events g (hsame ▸ hg))
    · rw [hevents] at hg
      obtain rfl | hbefore := List.mem_cons.mp hg
      · exact hchange.ended_true (hown.ended g rfl)
      · exact hchange.ended_true (hshared.events g hbefore)

theorem overOwn_step (h : Steps s a move) (hallowed : orderly.step ok s a) (hmade : MadeShared s)
    (hmadeOwn : MadeOwn s a) (hshared : OverShared s) (hown : OverOwn s a) :
    OverOwn move.shared move.task where
  taken k g htask := by
    cases h with
    | @take k' prev hcurrent =>
      cases htask
      have hmade' := hmade.current g hcurrent
      refine ⟨rfl, hmade', fun hplaying => ?_⟩
      exact Nat.lt_of_le_of_ne (hmade.bounded g hmade') (hallowed g hcurrent hplaying)
    | @found caller | @foundAgain caller | @set caller | @notStarted caller =>
      cases caller <;> cases htask
    | @takeNone k' | @stopPrev k' => cases k' <;> cases htask
    | _ => cases htask
  woken g htask := by
    cases h with
    | wake hsilent =>
      cases htask
      exact hsilent
    | @found caller | @foundAgain caller | @set caller | @notStarted caller =>
      cases caller <;> cases htask
    | @takeNone k' | @stopPrev k' => cases k' <;> cases htask
    | _ => cases htask
  ended g hclip := by
    have hchange := sinkChange_of_steps h hmadeOwn g
    obtain hbefore | ⟨rfl, hlatest⟩ := endedClip_cases h hclip
    · exact hchange.ended_true (hown.ended g hbefore)
    · -- the clip is over, and of the latest generation: it has ended by itself
      refine hchange.ended_true ?_
      match hsink : s.sinks g with
      | none => exact absurd hsink (hmadeOwn.watched g rfl)
      | some .playing => exact absurd hsink (hown.woken g rfl)
      | some .stopped => exact absurd (hshared.stopped g hsink) (by lia)
      | some (.ended false) => exact absurd (hshared.outdated g hsink) (by lia)
      | some (.ended true) => rfl

theorem overOwn_beside (h : Steps s a move) (hlock : holdsCurrent a = true → holdsCurrent b = false)
    (hmadeOwn : MadeOwn s a) (hmadeOther : MadeOwn s b) (hother : OverOwn s b) :
    OverOwn move.shared b where
  taken k g hb := by
    subst hb
    obtain ⟨hnone, hmade, hold⟩ := hother.taken k g rfl
    have hchange := sinkChange_of_steps h hmadeOwn g
    refine ⟨?_, hchange.ne_none hmade, fun hplaying => ?_⟩
    · -- `current` does not change while it is locked
      obtain hsame | ⟨hnone', -⟩ | ⟨g', -, rfl⟩ | ⟨g', hnone', -⟩ := current_cases h
      · exact hsame.trans hnone
      · exact hnone'
      · cases hlock rfl
      · exact hnone'
    · exact Nat.lt_of_lt_of_le (hold ((hchange.playing hplaying).resolve_right hmade))
        (generation_le h)
  woken g hb := by
    subst hb
    exact (sinkChange_of_steps h hmadeOwn g).ne_playing (hmadeOther.watched g rfl)
      (hother.woken g rfl)
  ended g hclip := (sinkChange_of_steps h hmadeOwn g).ended_true (hother.ended g hclip)

/-- What the sinks that are over rest on. -/
def settled : Assertions Playback PlaybackTask :=
  ((numbered.and played).and made).and (Guard.assertions (·.currentLocked) holdsCurrent)

theorem overClips_stable : Assertions.Stable settled overClips program orderly where
  symm _ := trivial
  call := by
    intro k s s' a _ hshared hbegins
    have hmade : MadeShared s := hshared.1.1.2
    have hover : OverShared s := hshared.2
    have hchange := sinkChange_of_begins hbegins
    obtain ⟨rfl, rfl | rfl⟩ | ⟨g, hplaying, rfl, rfl⟩ := begins_cases hbegins
    · exact ⟨hover, nofun, nofun, nofun⟩
    · exact ⟨hover, nofun, nofun, nofun⟩
    · refine ⟨⟨fun g' hg' => ?_, fun g' hg' => ?_, fun g' hg' hplaying' => ?_,
        fun g' hg' => (hchange g').ended_true (hover.events g' hg')⟩, nofun, nofun, nofun⟩
      · rcases eq_or_ne g' g with rfl | hne
        · simp at hg'
        · exact hover.stopped g' (by simpa [hne] using hg')
      · rcases eq_or_ne g' g with rfl | hne
        · have hold : g' ≠ s.generation := by simpa using hg'
          exact Nat.lt_of_le_of_ne (hmade.bounded g' (by simp [hplaying])) hold
        · exact hover.outdated g' (by simpa [hne] using hg')
      · exact hover.current g' hg'
          (((hchange g').playing hplaying').resolve_right (hmade.current g' hg'))
  callBeside := by
    intro k s s' a b _ _ hshared hown hbegins
    have hmade : MadeOwn s b := hown.1.1.2
    have hover : OverOwn s b := hown.2
    have hchange := sinkChange_of_begins hbegins
    refine ⟨?_, trivial⟩
    obtain ⟨rfl, -⟩ | ⟨g, hplaying, rfl, rfl⟩ := begins_cases hbegins
    · exact hover
    · refine ⟨fun k g' hb => ?_, fun g' hb => ?_,
        fun g' hclip => (hchange g').ended_true (hover.ended g' hclip)⟩
      · obtain ⟨hnone, hsome, hold⟩ := hover.taken k g' hb
        exact ⟨hnone, (hchange g').ne_none hsome,
          fun hplaying' => hold (((hchange g').playing hplaying').resolve_right hsome)⟩
      · exact (hchange g').ne_playing (hmade.watched g' (by simp [hb, watched])) (hover.woken g' hb)
  step := by
    intro ok s a move htaken
    have h := steps_of_step htaken.eq
    exact ⟨overShared_step h htaken.allowed htaken.own.1.1.1.2.2 htaken.shared.1.1.2
        htaken.own.1.1.2 htaken.shared.2 htaken.own.2,
      overOwn_step h htaken.allowed htaken.shared.1.1.2 htaken.own.1.1.2 htaken.shared.2
        htaken.own.2⟩
  beside := by
    intro ok s a b move hbeside
    exact ⟨overOwn_beside (steps_of_step hbeside.eq) hbeside.pair.1.2 hbeside.own.1.1.2
      hbeside.ownOther.1.1.2 hbeside.ownOther.2, trivial⟩
  spawn := by
    intro ok s a child move htaken hspawned
    have h := steps_of_step htaken.eq
    refine ⟨?_, trivial⟩
    cases h <;> cases hspawned
    exact ⟨nofun, nofun, nofun⟩
  spawnBeside _ _ := trivial

/-- All that is so in a run. -/
structure Facts (c : Config Playback PlaybackTask) : Prop where
  /-- the calls have different numbers -/
  numbered : numbered.Hold c
  /-- there is a player where one is needed -/
  played : played.Hold c
  /-- the sinks were made -/
  made : made.Hold c
  /-- `current` is locked by one task at a time -/
  locked : (Guard.assertions (·.currentLocked) holdsCurrent).Hold c
  /-- the sinks that are over -/
  overClips : overClips.Hold c

theorem numbered_start : numbered.Hold start := by
  refine ⟨trivial, fun t n hn => ?_, fun t u _ n hn => ?_⟩ <;> cases hn

theorem played_start : played.Hold start := by
  refine ⟨trivial, fun t => ⟨fun h => ?_, fun h => ?_⟩, fun _ _ _ => trivial⟩ <;> cases h

theorem made_start : made.Hold start := by
  refine ⟨⟨fun g hg => absurd rfl hg, fun _ _ => rfl, fun g hg => ?_, fun g hg => ?_⟩,
    fun t => ⟨fun g hg => ?_, fun g hg => ?_, fun g hg => ?_, fun g hg => ?_⟩,
    fun _ _ _ => trivial⟩ <;> cases hg

theorem overClips_start : overClips.Hold start := by
  have hsinks : ∀ g, start.shared.sinks g = none := fun _ => rfl
  refine ⟨⟨fun g hg => ?_, fun g hg => ?_, fun g hg => ?_, fun g hg => ?_⟩,
    fun t => ⟨fun k g h => ?_, fun g h => ?_, fun g h => ?_⟩, fun _ _ _ => trivial⟩
  · rw [hsinks] at hg
    cases hg
  · rw [hsinks] at hg
    cases hg
  · cases hg
  · cases hg
  · cases h
  · cases h
  · cases h

theorem facts_of_reaches (h : Reaches program orderly start c) : Facts c := by
  have hnumbered : ∀ c, Reaches program orderly start c → numbered.Hold c := fun c hc =>
    numbered_stable.of_reaches (fun _ _ => Assertions.hold_trivial) numbered_start hc
  have hplayed : ∀ c, Reaches program orderly start c → played.Hold c := fun c hc =>
    played_stable.of_reaches (fun _ hc' => initGuard.hold (fun _ => rfl) hc') played_start hc
  have hmade : ∀ c, Reaches program orderly start c → made.Hold c := fun c hc =>
    made_stable.of_reaches (fun c' hc' => (hnumbered c' hc').and (hplayed c' hc')) made_start hc
  have hlocked : ∀ c, Reaches program orderly start c →
      (Guard.assertions (·.currentLocked) holdsCurrent).Hold c := fun c hc =>
    currentGuard.hold (fun _ => rfl) hc
  have hsettled : ∀ c, Reaches program orderly start c → settled.Hold c := fun c hc =>
    (((hnumbered c hc).and (hplayed c hc)).and (hmade c hc)).and (hlocked c hc)
  exact ⟨hnumbered c h, hplayed c h, hmade c h, hlocked c h,
    overClips_stable.of_reaches hsettled overClips_start h⟩

/-! ## Where a sink that plays is -/

/-- A task has a sink in its hands: it is about to store it, or to stop it. -/
def inHands (g : ℕ) : PlaybackTask → Prop
  | .lockStore g' | .store g' | .stopPrev _ g' => g' = g
  | _ => False

/-- A sink that plays and is in no hands is in `current`. -/
theorem inHands_absent (g : ℕ) : Absent Facts program orderly (inHands g)
    (fun s => s.sinks g = some .playing → s.current = some g) where
  free := by
    intro a hfree
    obtain rfl : a = .free := of_decide_eq_true hfree
    exact id
  call := by
    intro c t k s' a hfacts _ hbegins _ hQ hplaying
    obtain ⟨rfl, -⟩ | ⟨g', hplaying', -, rfl⟩ := begins_cases hbegins
    · exact hQ hplaying
    · refine hQ ?_
      rcases eq_or_ne g g' with rfl | hne
      · exact hplaying'
      · simpa [hne] using hplaying
  stay := by
    intro c t child ok move hfacts hallows hstep hbefore hafter hQ hplaying
    have h := steps_of_step hstep
    have hown := hfacts.made.own t
    obtain hsame | ⟨-, -, htask⟩ | ⟨hstopped, -⟩ := sinks_cases h g
    · have hcurrent := hQ (hsame ▸ hplaying)
      obtain hsame' | ⟨hnone, k, htake⟩ | ⟨g', hstored, hstore⟩ | ⟨g', -, hclip, hclear⟩ :=
        current_cases h
      · exact hsame'.trans hcurrent
      · -- it would be in the hands of the one that took it
        rw [htake] at h
        cases h with
        | take htaken =>
          rw [hcurrent] at htaken
          cases htaken
          exact absurd rfl hafter
        | takeNone hnone' =>
          rw [hcurrent] at hnone'
          cases hnone'
      · -- nothing is stored over a sink that plays
        have hallowed := hallows.1
        rw [hstore] at hallowed
        exact absurd (hsame ▸ hplaying) (hallowed.1 g hcurrent)
      · have hended := (hfacts.overClips.own t).ended g' (by simp [hclear, endedClip])
        rw [hcurrent] at hclip
        cases hclip
        rw [hsame, hended] at hplaying
        cases hplaying
    · exact absurd (by simp [htask, inHands]) hafter
    · rw [hstopped] at hplaying
      cases hplaying
  leave := by
    intro c t child ok move hfacts _ hstep hbusy hafter _ _ hplaying
    have h := steps_of_step hstep
    generalize c.tasks t = a at h hbusy
    cases h with
    | lockStore => exact absurd hbusy hafter
    | store =>
      obtain rfl : _ = g := hbusy
      rfl
    | @stopPrev k prev stopped hstopped =>
      obtain rfl : prev = g := hbusy
      have hsinks := not_playing_stopped hstopped
      cases k <;> exact absurd hplaying hsinks
    | _ => exact absurd hbusy id

/-! ## The latest call -/

/-- A call with a generation that has not looked into `current`. -/
def yetToLook (n : ℕ) : PlaybackTask → Prop
  | .player caller _ => callerNumber caller = some n
  | .lockTake k | .take k => takerNumber k = n
  | _ => False

theorem yetToLook_withPlayer (n : ℕ) (caller : PlayerCaller) :
    yetToLook n (withPlayer caller) ↔ callerNumber caller = some n := by
  cases caller <;> simp [withPlayer, yetToLook, callerNumber, takerNumber]

/-- Once the latest call has looked into `current`, this is known. -/
theorem yetToLook_absent (n : ℕ) : Absent (fun _ => True) program orderly (yetToLook n)
    (fun s => s.generation = n → s.latestTook = true) where
  free := by
    intro a hfree
    obtain rfl : a = .free := of_decide_eq_true hfree
    exact id
  call := by
    intro c t k s' a _ _ hbegins _ hQ
    obtain ⟨rfl, -⟩ | ⟨g, -, -, rfl⟩ := begins_cases hbegins <;> exact hQ
  stay := by
    intro c t child ok move _ _ hstep _ hafter hQ hgen
    have h := steps_of_step hstep
    generalize c.tasks t = a at h
    cases h with
    | playBump => exact absurd hgen hafter
    | stopBump => exact absurd (congrArg some hgen) hafter
    | take => simp_all [took, looked]
    | @takeNone k => cases k <;> simp_all [took, looked, afterTake, silence]
    | @notStarted caller => cases caller <;> simp_all [withoutPlayer, looked, silence]
    | @stopPrev k prev stopped hstopped =>
      have hsame : stopped.generation = c.shared.generation ∧
          stopped.latestTook = c.shared.latestTook := by
        rw [stopped_eq hstopped]
        exact ⟨rfl, rfl⟩
      cases k <;> exact hsame.2.trans (hQ (hsame.1.symm.trans hgen))
    | _ => exact hQ hgen
  leave := by
    intro c t child ok move _ _ hstep hbusy hafter _ _ hgen
    have h := steps_of_step hstep
    generalize c.tasks t = a at h hbusy
    cases h with
    | take =>
      obtain rfl : _ = n := hbusy
      simpa [took, looked] using .inr hgen.symm
    | @takeNone k =>
      obtain rfl : _ = n := hbusy
      cases k <;> simp_all [took, looked, afterTake, silence]
    | @notStarted caller =>
      cases caller <;> simp_all [withoutPlayer, looked, silence, yetToLook, callerNumber]
    | found | foundAgain | set => exact absurd ((yetToLook_withPlayer n _).mpr hbusy) hafter
    | missing | lockInit | missingAgain | started | lockTake => exact absurd hbusy hafter
    | _ => exact absurd hbusy id

/-! ## What stays silent -/

/-- The clips that a stop leaves silent when it returns. -/
theorem silenced_cases (h : Steps s a move) :
    move.shared.silenced = s.silenced ∨
      ∃ n clips, move.shared.silenced = clips ++ s.silenced ∧
        (a = .player (.stop n clips) .create ∨ (a = .take (.stop n clips) ∧ s.current = none) ∨
          ∃ prev, a = .stopPrev (.stop n clips) prev ∧ move.shared.sinks prev ≠ some .playing) := by
  cases h with
  | @notStarted caller =>
    cases caller with
    | stop n clips => exact .inr ⟨n, clips, rfl, .inl rfl⟩
    | _ => exact .inl rfl
  | @takeNone k hnone =>
    cases k with
    | stop n clips => exact .inr ⟨n, clips, rfl, .inr (.inl ⟨rfl, hnone⟩)⟩
    | play => exact .inl rfl
  | @stopPrev k prev stopped hstopped =>
    have hsilenced : stopped.silenced = s.silenced := by rw [stopped_eq hstopped]
    have hsinks := not_playing_stopped hstopped
    cases k with
    | stop n clips =>
      exact .inr ⟨n, clips, congrArg (clips ++ ·) hsilenced, .inr (.inr ⟨prev, rfl, hsinks⟩)⟩
    | play => exact .inl hsilenced
  | _ => exact .inl rfl

/-- What is so in a run, and where the sinks that play are. -/
def Placed (c : Config Playback PlaybackTask) : Prop :=
  Facts c ∧ ∀ g, (∀ t, ¬inHands g (c.tasks t)) → c.shared.sinks g = some .playing →
    c.shared.current = some g

/-- A task with `current` locked and empty sees all clips that had returned silent, but maybe the
one it is about to stop. -/
theorem silent_of_placed (h : Placed c) {t : ℕ} (hlock : holdsCurrent (c.tasks t) = true)
    (hnone : c.shared.current = none) (hreturned : g ∈ c.shared.returned)
    (hown : ∀ k, c.tasks t ≠ .stopPrev k g) : c.shared.sinks g ≠ some .playing := by
  obtain ⟨hfacts, hplaced⟩ := h
  intro hplaying
  refine absurd (hplaced g (fun u hhands => ?_) hplaying) (by simp [hnone])
  match htask : c.tasks u with
  | .lockStore g' =>
    rw [htask] at hhands
    obtain rfl : g' = g := hhands
    exact ((hfacts.made.own u).unreturned g' (by simp [htask, unreturned])).2 hreturned
  | .store g' =>
    rw [htask] at hhands
    obtain rfl : g' = g := hhands
    exact ((hfacts.made.own u).unreturned g' (by simp [htask, unreturned])).2 hreturned
  | .stopPrev k g' =>
    rw [htask] at hhands
    obtain rfl : g' = g := hhands
    rcases eq_or_ne t u with rfl | htu
    · exact hown k htask
    · -- two tasks would have it locked
      have hother := hfacts.locked.pair t u htu hlock
      simp [htask, holdsCurrent] at hother
  | .free | .player _ _ | .playBump | .stopBump _ | .lockTake _ | .take _ | .create _ | .spawn _
  | .sleep _ | .load _ | .lockClear _ | .clear _ | .emit _ | .finished =>
    rw [htask] at hhands
    exact hhands

/-- What a stop left silent stays silent. -/
theorem silenced_absent : Absent Placed program orderly (fun _ => False)
    (fun s => ∀ g ∈ s.silenced, s.sinks g ≠ none ∧ s.sinks g ≠ some .playing) where
  free _ := id
  call := by
    intro c t k s' a _ _ hbegins _ hQ g hg
    have hchange := sinkChange_of_begins hbegins g
    have hsilenced : s'.silenced = c.shared.silenced := by
      obtain ⟨rfl, -⟩ | ⟨g', -, -, rfl⟩ := begins_cases hbegins <;> rfl
    obtain ⟨hsome, hsilent⟩ := hQ g (hsilenced ▸ hg)
    exact ⟨hchange.ne_none hsome, hchange.ne_playing hsome hsilent⟩
  stay := by
    intro c t child ok move hplaced _ hstep _ _ hQ g hg
    have h := steps_of_step hstep
    obtain hfacts := hplaced.1
    have hown := hfacts.made.own t
    have hchange := sinkChange_of_steps h hown g
    have hkept : g ∈ c.shared.silenced → _ := fun hbefore =>
      And.intro (hchange.ne_none (hQ g hbefore).1)
        (hchange.ne_playing (hQ g hbefore).1 (hQ g hbefore).2)
    obtain hsame | ⟨n, clips, hsilenced, hwhere⟩ := silenced_cases h
    · exact hkept (hsame ▸ hg)
    rw [hsilenced] at hg
    obtain hclip | hbefore := List.mem_append.mp hg
    · have hreturned : g ∈ c.shared.returned := by
        refine hown.stopClips g ?_
        obtain htask | ⟨htask, -⟩ | ⟨prev, htask, -⟩ := hwhere <;> rw [htask] <;> exact hclip
      have hmade := hfacts.made.shared.returned g hreturned
      refine ⟨hchange.ne_none hmade, ?_⟩
      obtain htask | ⟨htask, hnone⟩ | ⟨prev, htask, hprev⟩ := hwhere
      · -- without a player there is no sink
        have hplayer := (hfacts.played.own t).2 (by simp [htask, creates])
        exact absurd (hfacts.made.shared.player hplayer g) hmade
      · exact hchange.ne_playing hmade (silent_of_placed hplaced (t := t)
          (by simp [htask, holdsCurrent]) hnone hreturned (by simp [htask]))
      · rcases eq_or_ne g prev with rfl | hne
        · exact hprev
        · exact hchange.ne_playing hmade (silent_of_placed hplaced (t := t)
            (by simp [htask, holdsCurrent]) ((hfacts.overClips.own t).taken _ prev htask).1 hreturned
            (by simp [htask, Ne.symm hne]))
    · exact hkept hbefore
  leave := by
    intro c t child ok move _ _ _ hbusy
    exact absurd hbusy id

/-! ## One clip at a time -/

theorem placed_of_reaches (h : Reaches program orderly start c) : Placed c :=
  ⟨facts_of_reaches h, fun g hidle =>
    (inHands_absent g).of_reaches (fun _ => facts_of_reaches) (fun _ => nofun) h hidle⟩

theorem calling_of_inHands (h : inHands g a) : calling a = true := by
  cases a <;> first | rfl | cases h

theorem calling_of_yetToLook (h : yetToLook n a) : calling a = true := by
  cases a with
  | player caller pc => cases caller <;> first | rfl | cases h
  | _ => first | rfl | cases h

/-- **One clip at a time.** -/
theorem oneClip_of_reaches (c : Config Playback PlaybackTask)
    (h : Reaches program orderly start c) : OneClip c := by
  obtain ⟨hfacts, hplaced⟩ := placed_of_reaches h
  refine ⟨fun hidle g hplaying => ?_, fun g hg => ?_, hfacts.overClips.shared.events⟩
  · have hcurrent : c.shared.current = some g := by
      refine hplaced g (fun t hhands => ?_) hplaying
      have := hidle t
      rw [calling_of_inHands hhands] at this
      cases this
    refine ⟨hcurrent, (hfacts.overClips.shared.current g hcurrent hplaying).resolve_right ?_⟩
    have htook : c.shared.latestTook = true := by
      refine (yetToLook_absent c.shared.generation).of_reaches (fun _ _ => trivial)
        (fun _ _ => rfl) h (fun t hlook => ?_) rfl
      have := hidle t
      rw [calling_of_yetToLook hlook] at this
      cases this
    simp [htook]
  · have hsilent := silenced_absent.of_reaches (fun _ => placed_of_reaches) (fun _ => nofun) h
      (fun _ => id)
    exact (hsilent g hg).2

/-! ### Runs of two plays -/

instance (k : PlaybackCall) (s : Playback) : Decidable (orderly.call k s) :=
  inferInstanceAs (Decidable True)

instance (k : PlaybackCall) (b : PlaybackTask) : Decidable (orderly.callBeside k b) :=
  inferInstanceAs (Decidable True)

instance (ok : Bool) (s : Playback) : ∀ a, Decidable (orderly.step ok s a)
  | .store g => inferInstanceAs (Decidable ((∀ prev ∈ s.current, s.sinks prev ≠ some .playing) ∧
      (g = s.generation ∨ s.latestTook = false)))
  | .take _ => inferInstanceAs (Decidable
      (∀ prev ∈ s.current, s.sinks prev = some .playing → prev ≠ s.generation))
  | .free => inferInstanceAs (Decidable True)
  | .player _ _ => inferInstanceAs (Decidable True)
  | .playBump => inferInstanceAs (Decidable True)
  | .stopBump _ => inferInstanceAs (Decidable True)
  | .lockTake _ => inferInstanceAs (Decidable True)
  | .stopPrev _ _ => inferInstanceAs (Decidable True)
  | .create _ => inferInstanceAs (Decidable True)
  | .lockStore _ => inferInstanceAs (Decidable True)
  | .spawn _ => inferInstanceAs (Decidable True)
  | .sleep _ => inferInstanceAs (Decidable True)
  | .load _ => inferInstanceAs (Decidable True)
  | .lockClear _ => inferInstanceAs (Decidable True)
  | .clear _ => inferInstanceAs (Decidable True)
  | .emit _ => inferInstanceAs (Decidable True)
  | .finished => inferInstanceAs (Decidable True)

instance (ok : Bool) (s : Playback) (a b : PlaybackTask) :
    Decidable (orderly.stepBeside ok s a b) :=
  inferInstanceAs (Decidable True)

/-- Steps of a task that succeed; what it spawns gets the second number. -/
def steps (t child count : ℕ) : List (Label Bool PlaybackCall) :=
  List.replicate count (.run t true child)

/-- The first play sets the player, and goes on until it is about to make its sink. -/
def firstPlay : List (Label Bool PlaybackCall) := .call 0 .play :: steps 0 2 8

/-- A play, and another that replaces its clip. -/
def replaced : List (Label Bool PlaybackCall) :=
  firstPlay ++ steps 0 2 4 ++ .call 1 .play :: steps 1 3 9

/-- A play that comes before the other has made its sink. -/
def overlapping : List (Label Bool PlaybackCall) :=
  firstPlay ++ .call 1 .play :: steps 1 3 8 ++ steps 0 2 4

/-- Two plays, one after the other. -/
theorem oneClip_replaced : ∃ c : Config Playback PlaybackTask,
    Program.runBelow program orderly 4 start replaced = some c ∧
      c.shared.sinks 1 = some .stopped ∧ c.shared.sinks 2 = some .playing ∧ OneClip c :=
  ⟨_, rfl, rfl, rfl, oneClip_of_reaches _ (Reaches.of_runBelow (fun _ => trivial)
    (fun _ _ _ => trivial) (fun _ _ => rfl) .refl
    (show Program.runBelow program orderly 4 start replaced = some _ from rfl))⟩

/-- In general there is more than one clip at a time: after two plays that overlap both clips
play, and the one of the latest generation cannot be stopped. -/
theorem not_oneClip_overlapping :
    ¬∀ c : Config Playback PlaybackTask, Reaches program .free start c → OneClip c := by
  intro h
  obtain ⟨c, hrun, hfirst, hsecond, hcurrent, hreturned⟩ : ∃ c : Config Playback PlaybackTask,
      Program.runBelow program .free 4 start overlapping = some c ∧
        c.shared.sinks 1 = some .playing ∧ c.shared.sinks 2 = some .playing ∧
        c.shared.current = some 1 ∧ ∀ t < 4, calling (c.tasks t) = false :=
    ⟨_, rfl, rfl, rfl, rfl, by decide⟩
  have hreach : Reaches program .free start c := .of_runBelow_free (fun _ _ => rfl) hrun
  have hidle : ∀ t, calling (c.tasks t) = false :=
    Program.forall_of_runBelow (P := fun a => calling a = false) hrun (fun _ _ => rfl) hreturned
  obtain ⟨hone, -⟩ := (h c hreach).one hidle 2 hsecond
  rw [hcurrent] at hone
  cases hone

end Playback

end MeetilyLocal
