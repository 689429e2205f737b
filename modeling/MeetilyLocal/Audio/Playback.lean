import MeetilyLocal.Library.Guard

/-!
# Clip playback

`play_pcm_i16` and `stop` of `audio/playback.rs`, the thread that watches a clip for its end, and
`player`, as tasks over the generation, the player and its mutex; one step of a task is what it does
on one atomic or one lock, or with the sink in its hands. A clip ends by itself at any time while it
plays.

A sink is named by the generation of the play that made it. What a clip sounds like and the threads
of the audio output are left out.
-/

namespace MeetilyLocal

/-- What became of a sink. -/
inductive SinkState : Type where
  /-- it plays -/
  | playing : SinkState
  /-- its clip ended by itself; whether it was of the latest generation then -/
  | ended : Bool → SinkState
  /-- it was stopped while it played -/
  | stopped : SinkState
  deriving DecidableEq

/-- What the calls share. -/
structure Playback : Type where
  /-- `GENERATION` -/
  generation : ℕ
  /-- `PLAYER` is set -/
  player : Bool
  /-- `INIT_LOCK` is held -/
  initLocked : Bool
  /-- the sink in `current` -/
  current : Option ℕ
  /-- the mutex of `current` is held -/
  currentLocked : Bool
  /-- the sinks that were made -/
  sinks : ℕ → Option SinkState
  /-- the call that bumped the generation last has looked into `current` since, or found no
  player -/
  latestTook : Bool
  /-- the clips whose play has returned -/
  returned : List ℕ
  /-- the clips whose play had returned before a stop started that has returned -/
  silenced : List ℕ
  /-- the ended events, by generation -/
  events : List ℕ

/-- At program start. -/
def Playback.initial : Playback :=
  ⟨0, false, false, none, false, fun _ => none, true, [], [], []⟩

/-! ## Tasks -/

/-- Where `player` is. -/
inductive PlayerPc : Type where
  /-- looking for a player -/
  | get : PlayerPc
  /-- locking `INIT_LOCK` -/
  | lockInit : PlayerPc
  /-- looking again -/
  | getAgain : PlayerPc
  /-- starting the output thread and waiting for its handle -/
  | create : PlayerPc
  /-- setting the player -/
  | set : PlayerPc
  deriving DecidableEq

/-- Who calls `player`. -/
inductive PlayerCaller : Type where
  /-- a play, before it bumps the generation -/
  | play : PlayerCaller
  /-- a stop with its generation, and the clips whose play had returned when it started -/
  | stop : ℕ → List ℕ → PlayerCaller
  /-- the watcher of a clip that has ended -/
  | watch : ℕ → PlayerCaller
  deriving DecidableEq

/-- Who takes the sink out of `current`. -/
inductive Taker : Type where
  /-- a play, with its generation -/
  | play : ℕ → Taker
  /-- a stop with its generation, and the clips whose play had returned when it started -/
  | stop : ℕ → List ℕ → Taker
  deriving DecidableEq

/-- A task. -/
inductive PlaybackTask : Type where
  /-- a task that does not exist -/
  | free : PlaybackTask
  /-- in `player` -/
  | player : PlayerCaller → PlayerPc → PlaybackTask
  /-- a play that bumps the generation -/
  | playBump : PlaybackTask
  /-- a stop that bumps the generation -/
  | stopBump : List ℕ → PlaybackTask
  /-- locking `current` to take the sink -/
  | lockTake : Taker → PlaybackTask
  /-- taking it -/
  | take : Taker → PlaybackTask
  /-- stopping the sink that was taken -/
  | stopPrev : Taker → ℕ → PlaybackTask
  /-- a play that makes its sink, which starts to play -/
  | create : ℕ → PlaybackTask
  /-- locking `current` to store it -/
  | lockStore : ℕ → PlaybackTask
  /-- storing it -/
  | store : ℕ → PlaybackTask
  /-- starting its watcher -/
  | spawn : ℕ → PlaybackTask
  /-- a watcher in `sleep_until_end` -/
  | sleep : ℕ → PlaybackTask
  /-- a watcher that reads the generation -/
  | load : ℕ → PlaybackTask
  /-- a watcher that locks `current` -/
  | lockClear : ℕ → PlaybackTask
  /-- a watcher that clears it -/
  | clear : ℕ → PlaybackTask
  /-- a watcher that emits the event -/
  | emit : ℕ → PlaybackTask
  /-- a task that has returned -/
  | finished : PlaybackTask
  deriving DecidableEq

/-- What comes from outside. -/
inductive PlaybackCall : Type where
  /-- `play_pcm_i16` -/
  | play : PlaybackCall
  /-- `stop` -/
  | stop : PlaybackCall
  /-- a clip ends -/
  | clipEnds : ℕ → PlaybackCall

namespace Playback

/-- A step to another point. -/
def goTo (s : Playback) (task : PlaybackTask) : Option (Tasks.Move Playback PlaybackTask) :=
  some ⟨s, task, none⟩

/-- A stop returns. -/
def silence (s : Playback) (clips : List ℕ) : Playback := { s with silenced := clips ++ s.silenced }

/-- Once there is a player. -/
def withPlayer : PlayerCaller → PlaybackTask
  | .play => .playBump
  | .stop n clips => .lockTake (.stop n clips)
  | .watch g => .lockClear g

/-- The call with a generation has looked into `current`, or found no player. -/
def looked (s : Playback) (n : ℕ) : Playback :=
  { s with latestTook := s.latestTook || decide (n = s.generation) }

/-- Where there is none: a play fails, and a stop has nothing to stop. -/
def withoutPlayer (s : Playback) : PlayerCaller → Playback × PlaybackTask
  | .play => (s, .finished)
  | .stop n clips => ((s.looked n).silence clips, .finished)
  | .watch g => (s, .emit g)

/-- `player` -/
def playerStep (ok : Bool) (s : Playback) (caller : PlayerCaller) :
    PlayerPc → Option (Tasks.Move Playback PlaybackTask)
  | .get => if s.player then goTo s (withPlayer caller) else goTo s (.player caller .lockInit)
  | .lockInit =>
    if s.initLocked then none else goTo { s with initLocked := true } (.player caller .getAgain)
  | .getAgain =>
    if s.player then goTo { s with initLocked := false } (withPlayer caller)
    else goTo s (.player caller .create)
  | .create =>
    if ok then goTo s (.player caller .set)
    else
      let failed := withoutPlayer { s with initLocked := false } caller
      goTo failed.1 failed.2
  | .set => goTo { s with player := true, initLocked := false } (withPlayer caller)

/-- The generation of a call that looks into `current`. -/
def takerNumber : Taker → ℕ
  | .play g => g
  | .stop n _ => n

/-- Once the sink is stopped, or there was none: a play goes on, a stop returns. The lock is let
go. -/
def afterTake (s : Playback) : Taker → Playback × PlaybackTask
  | .play g => ({ s with currentLocked := false }, .create g)
  | .stop _ clips => ({ s with currentLocked := false }.silence clips, .finished)

/-- The sink is taken out of `current`. -/
def took (s : Playback) (taker : Taker) : Playback :=
  { s.looked (takerNumber taker) with current := none }

/-- A step of a task; `ok` is whether what is tried succeeds. -/
def step (ok : Bool) (s : Playback) : PlaybackTask → Option (Tasks.Move Playback PlaybackTask)
  | .free | .finished => none
  | .player caller pc => playerStep ok s caller pc
  | .playBump =>
    goTo { s with generation := s.generation + 1, latestTook := false }
      (.lockTake (.play (s.generation + 1)))
  | .stopBump clips =>
    goTo { s with generation := s.generation + 1, latestTook := false }
      (.player (.stop (s.generation + 1) clips) .get)
  | .lockTake taker =>
    if s.currentLocked then none else goTo { s with currentLocked := true } (.take taker)
  | .take taker =>
    match s.current with
    | some prev => goTo (s.took taker) (.stopPrev taker prev)
    | none => goTo (afterTake (s.took taker) taker).1 (afterTake (s.took taker) taker).2
  | .stopPrev taker prev =>
    let stopped :=
      if s.sinks prev = some .playing then
        { s with sinks := Function.update s.sinks prev (some .stopped) }
      else s
    goTo (afterTake stopped taker).1 (afterTake stopped taker).2
  | .create g =>
    if ok then
      goTo { s with sinks := Function.update s.sinks g (some .playing) } (.lockStore g)
    else goTo s .finished
  | .lockStore g =>
    if s.currentLocked then none else goTo { s with currentLocked := true } (.store g)
  | .store g => goTo { s with current := some g, currentLocked := false } (.spawn g)
  | .spawn g => some ⟨{ s with returned := g :: s.returned }, .finished, some (.sleep g)⟩
  | .sleep g => if s.sinks g = some .playing then none else goTo s (.load g)
  | .load g =>
    if s.generation = g then goTo s (.player (.watch g) .get) else goTo s .finished
  | .lockClear g =>
    if s.currentLocked then none else goTo { s with currentLocked := true } (.clear g)
  | .clear g =>
    let current := if s.current = some g then none else s.current
    goTo { s with current := current, currentLocked := false } (.emit g)
  | .emit g => goTo { s with events := g :: s.events } .finished

/-- What begins. -/
def begins (s : Playback) : PlaybackCall → Option (Playback × PlaybackTask)
  | .play => some (s, .player .play .get)
  | .stop => some (s, .stopBump s.returned)
  | .clipEnds g =>
    if s.sinks g = some .playing then
      some ({ s with
        sinks := Function.update s.sinks g (some (.ended (decide (g = s.generation)))) }, .finished)
    else none

/-- The tasks. -/
def program : Tasks.Program Playback PlaybackTask Bool PlaybackCall where
  isFree task := decide (task = .free)
  begins call s := begins s call
  step := step

/-- Nothing has been called. -/
def start : Tasks.Config Playback PlaybackTask := ⟨initial, fun _ => .free⟩

/-! ## One clip at a time -/

/-- A task is a play or a stop that has not returned. -/
def calling : PlaybackTask → Bool
  | .player (.play) _ | .player (.stop _ _) _ | .playBump | .stopBump _ | .lockTake _ | .take _
  | .stopPrev _ _ | .create _ | .lockStore _ | .store _ | .spawn _ => true
  | .free | .player (.watch _) _ | .sleep _ | .load _ | .lockClear _ | .clear _ | .emit _
  | .finished => false

/-- One clip at a time. -/
structure OneClip (c : Tasks.Config Playback PlaybackTask) : Prop where
  /-- while no call is in progress, a sink that plays is the one in `current`, of the latest
  generation -/
  one : (∀ t, calling (c.tasks t) = false) → ∀ g, c.shared.sinks g = some .playing →
    c.shared.current = some g ∧ g = c.shared.generation
  /-- a stop leaves the clips silent whose play had returned before it started -/
  silent : ∀ g ∈ c.shared.silenced, c.shared.sinks g ≠ some .playing
  /-- an ended event is about a clip that has ended by itself, while it was of the latest
  generation -/
  genuine : ∀ g ∈ c.shared.events, c.shared.sinks g = some (.ended true)

/-- A call does not come between the three steps of another: a play stores its sink where no other
is playing, and only if no call that bumped the generation after it has looked into `current` by
then; and what is taken from `current` to be stopped is not of the latest generation. -/
def orderly : Tasks.Discipline Playback PlaybackTask Bool PlaybackCall where
  call _ _ := True
  callBeside _ _ := True
  step _ s
    | .store g => (∀ prev ∈ s.current, s.sinks prev ≠ some .playing) ∧
        (g = s.generation ∨ s.latestTook = false)
    | .take _ => ∀ prev ∈ s.current, s.sinks prev = some .playing → prev ≠ s.generation
    | _ => True
  stepBeside _ _ _ _ := True

end Playback

end MeetilyLocal
