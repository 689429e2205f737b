import MeetilyLocal.Audio.Playback

/-!
# What the tasks of the playback do

`Steps` says it by where a task is and what it finds, and the lemmas after it what becomes of each
part of the shared state. The two mutexes are locks (`initGuard`, `currentGuard`), the calls have
different numbers (`numbered`), and no sink is made before there is a player (`played`).
-/

namespace MeetilyLocal

namespace Playback

open Tasks

variable {s s' : Playback} {a b : PlaybackTask} {ok : Bool} {move : Move Playback PlaybackTask}
  {c c' : Config Playback PlaybackTask} {g n : ℕ}

/-- What a step does, by where the task is and what it finds. -/
inductive Steps (s : Playback) : PlaybackTask → Move Playback PlaybackTask → Prop where
  /-- there is a player -/
  | found {caller : PlayerCaller} : s.player = true →
    Steps s (.player caller .get) ⟨s, withPlayer caller, none⟩
  /-- there is none yet -/
  | missing {caller : PlayerCaller} : s.player = false →
    Steps s (.player caller .get) ⟨s, .player caller .lockInit, none⟩
  /-- `INIT_LOCK` is locked -/
  | lockInit {caller : PlayerCaller} : s.initLocked = false →
    Steps s (.player caller .lockInit)
      ⟨{ s with initLocked := true }, .player caller .getAgain, none⟩
  /-- there is a player now -/
  | foundAgain {caller : PlayerCaller} : s.player = true →
    Steps s (.player caller .getAgain) ⟨{ s with initLocked := false }, withPlayer caller, none⟩
  /-- there is still none -/
  | missingAgain {caller : PlayerCaller} : s.player = false →
    Steps s (.player caller .getAgain) ⟨s, .player caller .create, none⟩
  /-- the output thread is started -/
  | started {caller : PlayerCaller} : Steps s (.player caller .create) ⟨s, .player caller .set, none⟩
  /-- it is not -/
  | notStarted {caller : PlayerCaller} :
    Steps s (.player caller .create) ⟨(withoutPlayer { s with initLocked := false } caller).1,
      (withoutPlayer { s with initLocked := false } caller).2, none⟩
  /-- the player is set -/
  | set {caller : PlayerCaller} : Steps s (.player caller .set)
    ⟨{ s with player := true, initLocked := false }, withPlayer caller, none⟩
  /-- a play bumps the generation -/
  | playBump : Steps s .playBump ⟨{ s with generation := s.generation + 1, latestTook := false },
    .lockTake (.play (s.generation + 1)), none⟩
  /-- a stop does -/
  | stopBump {clips : List ℕ} : Steps s (.stopBump clips)
    ⟨{ s with generation := s.generation + 1, latestTook := false },
      .player (.stop (s.generation + 1) clips) .get, none⟩
  /-- `current` is locked to take the sink -/
  | lockTake {k : Taker} : s.currentLocked = false →
    Steps s (.lockTake k) ⟨{ s with currentLocked := true }, .take k, none⟩
  /-- the sink is taken -/
  | take {k : Taker} {prev : ℕ} : s.current = some prev →
    Steps s (.take k) ⟨s.took k, .stopPrev k prev, none⟩
  /-- there is none -/
  | takeNone {k : Taker} : s.current = none →
    Steps s (.take k) ⟨(afterTake (s.took k) k).1, (afterTake (s.took k) k).2, none⟩
  /-- the sink that was taken is stopped -/
  | stopPrev {k : Taker} {prev : ℕ} {stopped : Playback} :
    stopped = (if s.sinks prev = some .playing then
      { s with sinks := Function.update s.sinks prev (some .stopped) } else s) →
    Steps s (.stopPrev k prev) ⟨(afterTake stopped k).1, (afterTake stopped k).2, none⟩
  /-- a sink is made -/
  | create {g : ℕ} : Steps s (.create g)
    ⟨{ s with sinks := Function.update s.sinks g (some .playing) }, .lockStore g, none⟩
  /-- it is not -/
  | notCreated {g : ℕ} : Steps s (.create g) ⟨s, .finished, none⟩
  /-- `current` is locked to store it -/
  | lockStore {g : ℕ} : s.currentLocked = false →
    Steps s (.lockStore g) ⟨{ s with currentLocked := true }, .store g, none⟩
  /-- it is stored -/
  | store {g : ℕ} : Steps s (.store g)
    ⟨{ s with current := some g, currentLocked := false }, .spawn g, none⟩
  /-- its watcher is started, and the play returns -/
  | spawn {g : ℕ} : Steps s (.spawn g)
    ⟨{ s with returned := g :: s.returned }, .finished, some (.sleep g)⟩
  /-- the watcher wakes -/
  | wake {g : ℕ} : s.sinks g ≠ some .playing → Steps s (.sleep g) ⟨s, .load g, none⟩
  /-- its clip is of the latest generation -/
  | latest {g : ℕ} : s.generation = g → Steps s (.load g) ⟨s, .player (.watch g) .get, none⟩
  /-- it is not -/
  | outdated {g : ℕ} : s.generation ≠ g → Steps s (.load g) ⟨s, .finished, none⟩
  /-- `current` is locked to clear it -/
  | lockClear {g : ℕ} : s.currentLocked = false →
    Steps s (.lockClear g) ⟨{ s with currentLocked := true }, .clear g, none⟩
  /-- it is cleared if the clip is in it -/
  | clear {g : ℕ} {current : Option ℕ} : current = (if s.current = some g then none else s.current) →
    Steps s (.clear g) ⟨{ s with current := current, currentLocked := false }, .emit g, none⟩
  /-- the event is emitted -/
  | emit {g : ℕ} : Steps s (.emit g) ⟨{ s with events := g :: s.events }, .finished, none⟩

/-- Stopping the sink that was taken changes nothing but sinks. -/
theorem stopped_eq {prev : ℕ} {stopped : Playback}
    (h : stopped = if s.sinks prev = some .playing then
      { s with sinks := Function.update s.sinks prev (some .stopped) } else s) :
    stopped = { s with sinks := stopped.sinks } := by
  rw [h]
  split <;> rfl

/-- It plays no more. -/
theorem not_playing_stopped {prev : ℕ} {stopped : Playback}
    (h : stopped = if s.sinks prev = some .playing then
      { s with sinks := Function.update s.sinks prev (some .stopped) } else s) :
    stopped.sinks prev ≠ some .playing := by
  rw [h]
  split
  · simp
  · assumption

theorem steps_of_step (h : program.step ok s a = some move) : Steps s a move := by
  cases a with
  | free | finished => cases h
  | player caller pc =>
    cases pc with
    | get =>
      simp only [program, step, playerStep] at h
      split at h
      · next hplayer => cases h; exact .found hplayer
      · next hplayer => cases h; exact .missing (by simpa using hplayer)
    | lockInit =>
      simp only [program, step, playerStep] at h
      split at h
      · cases h
      · next hlocked => cases h; exact .lockInit (by simpa using hlocked)
    | getAgain =>
      simp only [program, step, playerStep] at h
      split at h
      · next hplayer => cases h; exact .foundAgain hplayer
      · next hplayer => cases h; exact .missingAgain (by simpa using hplayer)
    | create =>
      simp only [program, step, playerStep] at h
      split at h
      · cases h; exact .started
      · cases h; exact .notStarted
    | set => cases h; exact .set
  | playBump => cases h; exact .playBump
  | stopBump clips => cases h; exact .stopBump
  | lockTake k =>
    simp only [program, step] at h
    split at h
    · cases h
    · next hlocked => cases h; exact .lockTake (by simpa using hlocked)
  | take k =>
    simp only [program, step] at h
    split at h
    · next hcurrent => cases h; exact .take hcurrent
    · next hcurrent => cases h; exact .takeNone hcurrent
  | stopPrev k prev => cases h; exact .stopPrev rfl
  | create g =>
    simp only [program, step] at h
    split at h
    · cases h; exact .create
    · cases h; exact .notCreated
  | lockStore g =>
    simp only [program, step] at h
    split at h
    · cases h
    · next hlocked => cases h; exact .lockStore (by simpa using hlocked)
  | store g => cases h; exact .store
  | spawn g => cases h; exact .spawn
  | sleep g =>
    simp only [program, step] at h
    split at h
    · cases h
    · next hplaying => cases h; exact .wake hplaying
  | load g =>
    simp only [program, step] at h
    split at h
    · next hlatest => cases h; exact .latest hlatest
    · next hlatest => cases h; exact .outdated hlatest
  | lockClear g =>
    simp only [program, step] at h
    split at h
    · cases h
    · next hlocked => cases h; exact .lockClear (by simpa using hlocked)
  | clear g => cases h; exact .clear rfl
  | emit g => cases h; exact .emit

/-- What begins. -/
theorem begins_cases {call : PlaybackCall} (h : program.begins call s = some (s', a)) :
    (s' = s ∧ (a = .player .play .get ∨ a = .stopBump s.returned)) ∨
      ∃ g, s.sinks g = some .playing ∧ a = .finished ∧
        s' = { s with
          sinks := Function.update s.sinks g (some (.ended (decide (g = s.generation)))) } := by
  cases call with
  | play => obtain ⟨rfl, rfl⟩ := Prod.mk.inj (Option.some.inj h); exact .inl ⟨rfl, .inl rfl⟩
  | stop => obtain ⟨rfl, rfl⟩ := Prod.mk.inj (Option.some.inj h); exact .inl ⟨rfl, .inr rfl⟩
  | clipEnds g =>
    simp only [program, begins] at h
    split at h
    · next hplaying =>
      obtain ⟨rfl, rfl⟩ := Prod.mk.inj (Option.some.inj h)
      exact .inr ⟨g, hplaying, rfl, rfl⟩
    · cases h

/-! ## The two locks -/

/-- A task holds `INIT_LOCK`. -/
def holdsInit : PlaybackTask → Bool
  | .player _ .getAgain | .player _ .create | .player _ .set => true
  | _ => false

/-- A task holds the lock of `current`. -/
def holdsCurrent : PlaybackTask → Bool
  | .take _ | .stopPrev _ _ | .store _ | .clear _ => true
  | _ => false

@[simp] theorem holdsInit_withPlayer (caller : PlayerCaller) :
    holdsInit (withPlayer caller) = false := by cases caller <;> rfl

@[simp] theorem holdsInit_withoutPlayer (s : Playback) (caller : PlayerCaller) :
    holdsInit (withoutPlayer s caller).2 = false := by cases caller <;> rfl

@[simp] theorem initLocked_withoutPlayer (s : Playback) (caller : PlayerCaller) :
    (withoutPlayer s caller).1.initLocked = s.initLocked := by cases caller <;> rfl

@[simp] theorem holdsInit_afterTake (s : Playback) (k : Taker) :
    holdsInit (afterTake s k).2 = false := by cases k <;> rfl

@[simp] theorem initLocked_afterTake (s : Playback) (k : Taker) :
    (afterTake s k).1.initLocked = s.initLocked := by cases k <;> rfl

@[simp] theorem holdsCurrent_withPlayer (caller : PlayerCaller) :
    holdsCurrent (withPlayer caller) = false := by cases caller <;> rfl

@[simp] theorem holdsCurrent_withoutPlayer (s : Playback) (caller : PlayerCaller) :
    holdsCurrent (withoutPlayer s caller).2 = false := by cases caller <;> rfl

@[simp] theorem currentLocked_withoutPlayer (s : Playback) (caller : PlayerCaller) :
    (withoutPlayer s caller).1.currentLocked = s.currentLocked := by cases caller <;> rfl

@[simp] theorem holdsCurrent_afterTake (s : Playback) (k : Taker) :
    holdsCurrent (afterTake s k).2 = false := by cases k <;> rfl

@[simp] theorem currentLocked_afterTake (s : Playback) (k : Taker) :
    (afterTake s k).1.currentLocked = false := by cases k <;> rfl

theorem initGuard : Guard program (·.initLocked) holdsInit where
  free := by
    intro a h
    obtain rfl : a = .free := of_decide_eq_true h
    rfl
  call := by
    intro k s s' a h
    obtain ⟨rfl, rfl | rfl⟩ | ⟨g, -, rfl, rfl⟩ := begins_cases h <;> exact ⟨rfl, rfl⟩
  step := by
    intro ok s a move h
    cases steps_of_step h with
    | lockInit hfree => exact .inr (.inl ⟨hfree, rfl, rfl, rfl⟩)
    | found => exact .inl ⟨rfl, holdsInit_withPlayer _⟩
    | foundAgain | set => exact .inr (.inr ⟨rfl, rfl, holdsInit_withPlayer _⟩)
    | notStarted => exact .inr (.inr ⟨rfl, initLocked_withoutPlayer _ _, holdsInit_withoutPlayer _ _⟩)
    | takeNone => exact .inl ⟨initLocked_afterTake _ _, holdsInit_afterTake _ _⟩
    | stopPrev hstopped =>
      refine .inl ⟨?_, holdsInit_afterTake _ _⟩
      rw [initLocked_afterTake, stopped_eq hstopped]
    | _ => exact .inl ⟨rfl, rfl⟩
  spawn := by
    intro ok s a child move h hspawned
    cases steps_of_step h <;> cases hspawned
    rfl

theorem currentGuard : Guard program (·.currentLocked) holdsCurrent where
  free := by
    intro a h
    obtain rfl : a = .free := of_decide_eq_true h
    rfl
  call := by
    intro k s s' a h
    obtain ⟨rfl, rfl | rfl⟩ | ⟨g, -, rfl, rfl⟩ := begins_cases h <;> exact ⟨rfl, rfl⟩
  step := by
    intro ok s a move h
    cases steps_of_step h with
    | lockTake hfree | lockStore hfree | lockClear hfree => exact .inr (.inl ⟨hfree, rfl, rfl, rfl⟩)
    | found | foundAgain | set => exact .inl ⟨rfl, holdsCurrent_withPlayer _⟩
    | notStarted => exact .inl ⟨currentLocked_withoutPlayer _ _, holdsCurrent_withoutPlayer _ _⟩
    | takeNone | stopPrev =>
      exact .inr (.inr ⟨rfl, currentLocked_afterTake _ _, holdsCurrent_afterTake _ _⟩)
    | store | clear => exact .inr (.inr ⟨rfl, rfl, rfl⟩)
    | _ => exact .inl ⟨rfl, rfl⟩
  spawn := by
    intro ok s a child move h hspawned
    cases steps_of_step h <;> cases hspawned
    rfl

/-! ## What a step changes -/

/-- The generation of a stop that calls `player`. -/
def callerNumber : PlayerCaller → Option ℕ
  | .stop n _ => some n
  | .play | .watch _ => none

/-- The generation of a call that has one. -/
def number : PlaybackTask → Option ℕ
  | .player caller _ => callerNumber caller
  | .lockTake k | .take k | .stopPrev k _ => some (takerNumber k)
  | .create g | .lockStore g | .store g | .spawn g => some g
  | _ => none

@[simp] theorem number_withPlayer (caller : PlayerCaller) :
    number (withPlayer caller) = callerNumber caller := by cases caller <;> rfl

@[simp] theorem number_withoutPlayer (s : Playback) (caller : PlayerCaller) :
    number (withoutPlayer s caller).2 = none := by cases caller <;> rfl

@[simp] theorem generation_withoutPlayer (s : Playback) (caller : PlayerCaller) :
    (withoutPlayer s caller).1.generation = s.generation := by cases caller <;> rfl

@[simp] theorem generation_afterTake (s : Playback) (k : Taker) :
    (afterTake s k).1.generation = s.generation := by cases k <;> rfl

theorem number_afterTake (s : Playback) (k : Taker) :
    number (afterTake s k).2 = some (takerNumber k) ∨ number (afterTake s k).2 = none := by
  cases k
  · exact .inl rfl
  · exact .inr rfl

/-- A call that bumps the generation has a number from then on, and has yet to look. -/
theorem generation_cases (h : Steps s a move) :
    (move.shared.generation = s.generation ∧
      (number move.task = number a ∨ number move.task = none)) ∨
    (move.shared.generation = s.generation + 1 ∧ number move.task = some (s.generation + 1) ∧
      move.shared.latestTook = false) := by
  cases h with
  | playBump | stopBump => exact .inr ⟨rfl, rfl, rfl⟩
  | found | foundAgain | set => exact .inl ⟨rfl, .inl (number_withPlayer _)⟩
  | notStarted => exact .inl ⟨generation_withoutPlayer _ _, .inr (number_withoutPlayer _ _)⟩
  | takeNone => exact .inl ⟨generation_afterTake _ _, number_afterTake _ _⟩
  | stopPrev hstopped =>
    refine .inl ⟨?_, number_afterTake _ _⟩
    rw [generation_afterTake, stopped_eq hstopped]
  | notCreated | wake | latest | outdated | lockClear | clear | emit | spawn =>
    exact .inl ⟨rfl, .inr rfl⟩
  | _ => exact .inl ⟨rfl, .inl rfl⟩

theorem number_spawned {child : PlaybackTask} (h : Steps s a move)
    (hspawned : move.spawned = some child) : number child = none := by
  cases h <;> cases hspawned
  rfl

/-- The player is set once. -/
theorem player_cases (h : Steps s a move) :
    move.shared.player = s.player ∨
      (move.shared.player = true ∧ ∃ caller, a = .player caller .set) := by
  cases h with
  | set => exact .inr ⟨rfl, _, rfl⟩
  | @notStarted caller => cases caller <;> exact .inl rfl
  | @takeNone k => cases k <;> exact .inl rfl
  | @stopPrev k prev stopped hstopped =>
    have hplayer : stopped.player = s.player := by rw [stopped_eq hstopped]
    cases k <;> exact .inl hplayer
  | _ => exact .inl rfl

/-- What becomes of a sink. -/
theorem sinks_cases (h : Steps s a move) (g : ℕ) :
    move.shared.sinks g = s.sinks g ∨
      (move.shared.sinks g = some .playing ∧ a = .create g ∧ move.task = .lockStore g) ∨
      (move.shared.sinks g = some .stopped ∧ s.sinks g = some .playing ∧
        ∃ k, a = .stopPrev k g) := by
  cases h with
  | @create g' =>
    rcases eq_or_ne g g' with rfl | hg
    · exact .inr (.inl ⟨Function.update_self _ _ _, rfl, rfl⟩)
    · exact .inl (Function.update_of_ne hg _ _)
  | @notStarted caller => cases caller <;> exact .inl rfl
  | @takeNone k => cases k <;> exact .inl rfl
  | @stopPrev k prev stopped hstopped =>
    have hsinks : stopped.sinks g = s.sinks g ∨
        (stopped.sinks g = some .stopped ∧ s.sinks g = some .playing ∧ prev = g) := by
      rw [hstopped]
      split
      · next hplaying =>
        rcases eq_or_ne g prev with rfl | hg
        · exact .inr ⟨Function.update_self _ _ _, hplaying, rfl⟩
        · exact .inl (Function.update_of_ne hg _ _)
      · exact .inl rfl
    have hafter : (afterTake stopped k).1.sinks = stopped.sinks := by cases k <;> rfl
    rw [hafter]
    obtain hsame | ⟨hstop, hplaying, rfl⟩ := hsinks
    · exact .inl hsame
    · exact .inr (.inr ⟨hstop, hplaying, k, rfl⟩)
  | _ => exact .inl rfl

/-- What becomes of `current`. -/
theorem current_cases (h : Steps s a move) :
    move.shared.current = s.current ∨
      (move.shared.current = none ∧ ∃ k, a = .take k) ∨
      (∃ g, move.shared.current = some g ∧ a = .store g) ∨
      (∃ g, move.shared.current = none ∧ s.current = some g ∧ a = .clear g) := by
  cases h with
  | take => exact .inr (.inl ⟨rfl, _, rfl⟩)
  | @takeNone k => cases k <;> exact .inr (.inl ⟨rfl, _, rfl⟩)
  | store => exact .inr (.inr (.inl ⟨_, rfl, rfl⟩))
  | @clear g current hcurrent =>
    rw [hcurrent]
    split
    · next hclip => exact .inr (.inr (.inr ⟨g, rfl, hclip, rfl⟩))
    · exact .inl rfl
  | @notStarted caller => cases caller <;> exact .inl rfl
  | @stopPrev k prev stopped hstopped =>
    have hcurrent : stopped.current = s.current := by rw [stopped_eq hstopped]
    cases k <;> exact .inl hcurrent
  | _ => exact .inl rfl

/-- A play returns when its watcher is started. -/
theorem returned_cases (h : Steps s a move) :
    move.shared.returned = s.returned ∨
      ∃ g, move.shared.returned = g :: s.returned ∧ a = .spawn g := by
  cases h with
  | spawn => exact .inr ⟨_, rfl, rfl⟩
  | @notStarted caller => cases caller <;> exact .inl rfl
  | @takeNone k => cases k <;> exact .inl rfl
  | @stopPrev k prev stopped hstopped =>
    have hreturned : stopped.returned = s.returned := by rw [stopped_eq hstopped]
    cases k <;> exact .inl hreturned
  | _ => exact .inl rfl

/-! ## The numbers of the calls -/

/-- No two calls have one number, and none is above the generation. -/
def numbered : Assertions Playback PlaybackTask where
  shared _ := True
  own s a := ∀ n, number a = some n → n ≤ s.generation
  pair a b := ∀ n, number a = some n → number b ≠ some n

theorem numbered_stable {d : Discipline Playback PlaybackTask Bool PlaybackCall} :
    Assertions.Stable .trivial numbered program d where
  symm hpair n hb ha := hpair n ha hb
  call := by
    intro k s s' a _ _ hbegins
    refine ⟨trivial, fun n hn => ?_⟩
    obtain ⟨-, rfl | rfl⟩ | ⟨g, -, rfl, -⟩ := begins_cases hbegins <;> cases hn
  callBeside := by
    intro k s s' a b _ _ _ hown hbegins
    obtain ⟨rfl, rfl | rfl⟩ | ⟨g, -, rfl, rfl⟩ := begins_cases hbegins <;>
      exact ⟨hown.2, fun n hn => nomatch hn⟩
  step := by
    intro ok s a move htaken
    refine ⟨trivial, fun n hn => ?_⟩
    obtain ⟨hgen, hsame | hnone⟩ | ⟨hgen, hbumped, -⟩ := generation_cases (steps_of_step htaken.eq)
    · exact hgen ▸ htaken.own.2 n (hsame ▸ hn)
    · rw [hnone] at hn
      cases hn
    · rw [hbumped] at hn
      cases hn
      exact Nat.le_of_eq hgen.symm
  beside := by
    intro ok s a b move hbeside
    obtain ⟨hgen, hsame | hnone⟩ | ⟨hgen, hbumped, -⟩ := generation_cases (steps_of_step hbeside.eq)
    · exact ⟨fun n hn => hgen ▸ hbeside.ownOther.2 n hn,
        fun n hn => hbeside.pair.2 n (hsame ▸ hn)⟩
    · refine ⟨fun n hn => hgen ▸ hbeside.ownOther.2 n hn, fun n hn => ?_⟩
      rw [hnone] at hn
      cases hn
    · refine ⟨fun n hn => ?_, fun n hn hb => ?_⟩
      · have := hbeside.ownOther.2 n hn
        lia
      · -- the other number is not above the generation before the bump
        rw [hbumped] at hn
        cases hn
        have := hbeside.ownOther.2 _ hb
        lia
  spawn := by
    intro ok s a child move htaken hspawned
    have hnone := number_spawned (steps_of_step htaken.eq) hspawned
    exact ⟨fun n hn => by simp [hnone] at hn, fun n _ hn => by simp [hnone] at hn⟩
  spawnBeside := by
    intro ok s a b child move hbeside hspawned n hn
    simp [number_spawned (steps_of_step hbeside.eq) hspawned] at hn

/-! ## The player -/

/-- A play with a player, before its sink is made. -/
def hasPlayer : PlaybackTask → Bool
  | .playBump | .lockTake (.play _) | .take (.play _) | .stopPrev (.play _) _ | .create _ => true
  | _ => false

/-- A task that is about to set the player. -/
def creates : PlaybackTask → Bool
  | .player _ .create | .player _ .set => true
  | _ => false

@[simp] theorem creates_withPlayer (caller : PlayerCaller) :
    creates (withPlayer caller) = false := by cases caller <;> rfl

@[simp] theorem creates_withoutPlayer (s : Playback) (caller : PlayerCaller) :
    creates (withoutPlayer s caller).2 = false := by cases caller <;> rfl

@[simp] theorem hasPlayer_withoutPlayer (s : Playback) (caller : PlayerCaller) :
    hasPlayer (withoutPlayer s caller).2 = false := by cases caller <;> rfl

@[simp] theorem creates_afterTake (s : Playback) (k : Taker) :
    creates (afterTake s k).2 = false := by cases k <;> rfl

/-- There is a player where a sink is about to be made, and none where a player is about to be
set. -/
def played : Assertions Playback PlaybackTask where
  shared _ := True
  own s a := (hasPlayer a = true → s.player = true) ∧ (creates a = true → s.player = false)
  pair _ _ := True

theorem played_step (h : Steps s a move) (hown : played.own s a) :
    played.own move.shared move.task := by
  obtain ⟨hhas, hcreates⟩ := hown
  cases h with
  | found hplayer | foundAgain hplayer => exact ⟨fun _ => hplayer, by simp⟩
  | set => exact ⟨fun _ => rfl, by simp⟩
  | missingAgain hmissing => exact ⟨nofun, fun _ => hmissing⟩
  | started => exact ⟨nofun, fun _ => hcreates rfl⟩
  | notStarted => exact ⟨by simp, by simp⟩
  | playBump => exact ⟨fun _ => hhas rfl, nofun⟩
  | @lockTake k =>
    cases k
    · exact ⟨fun _ => hhas rfl, nofun⟩
    · exact ⟨nofun, nofun⟩
  | @take k =>
    cases k
    · exact ⟨fun _ => hhas rfl, nofun⟩
    · exact ⟨nofun, nofun⟩
  | @takeNone k =>
    cases k
    · exact ⟨fun _ => hhas rfl, nofun⟩
    · exact ⟨nofun, nofun⟩
  | @stopPrev k prev stopped hstopped =>
    have hplayer : stopped.player = s.player := by rw [stopped_eq hstopped]
    cases k
    · exact ⟨fun _ => hplayer.trans (hhas rfl), nofun⟩
    · exact ⟨nofun, nofun⟩
  | _ => exact ⟨nofun, nofun⟩

theorem played_stable {d : Discipline Playback PlaybackTask Bool PlaybackCall} :
    Assertions.Stable (Guard.assertions (·.initLocked) holdsInit) played program d where
  symm _ := trivial
  call := by
    intro k s s' a _ _ hbegins
    obtain ⟨-, rfl | rfl⟩ | ⟨g, -, rfl, -⟩ := begins_cases hbegins <;>
      exact ⟨trivial, nofun, nofun⟩
  callBeside := by
    intro k s s' a b _ _ _ hown hbegins
    obtain ⟨rfl, -⟩ | ⟨g, -, -, rfl⟩ := begins_cases hbegins <;> exact ⟨hown.2, trivial⟩
  step htaken := ⟨trivial, played_step (steps_of_step htaken.eq) htaken.own.2⟩
  beside := by
    intro ok s a b move hbeside
    refine ⟨?_, trivial⟩
    obtain hsame | ⟨hset, caller, rfl⟩ := player_cases (steps_of_step hbeside.eq)
    · exact ⟨fun hb => hsame.trans (hbeside.ownOther.2.1 hb),
        fun hb => hsame.trans (hbeside.ownOther.2.2 hb)⟩
    · -- the task that sets the player holds the lock, so no other is about to
      refine ⟨fun _ => hset, fun hb => ?_⟩
      have hother : holdsInit b = false := hbeside.pair.1 rfl
      cases b <;> simp_all [creates]
      next caller' pc => cases pc <;> simp_all [holdsInit]
  spawn := by
    intro ok s a child move htaken hspawned
    have h := steps_of_step htaken.eq
    refine ⟨?_, trivial⟩
    cases h <;> cases hspawned
    exact ⟨nofun, nofun⟩
  spawnBeside _ _ := trivial

end Playback

end MeetilyLocal
