import MeetilyLocal.Transcription.Worker

/-!
# From the pipeline to the transcript

The embedding of the way of the segments from the audio pipeline to the worker (`transcription/queue.rs`,
and the loop of `start_transcription_task`). The pipeline sends to a channel; a forwarding task counts
what it takes from there, and passes it on through a second channel to the worker, which takes one segment
at a time, splits it into the turns of its speakers and goes through these.

A step ends where a task waits, or before it touches what others touch as well. Recordings may overlap, so
that any number of sessions share the counters. What is sent, split, processed and lost is kept as a
history, which the code does not read.
-/

namespace MeetilyLocal

open EchoDedup (Buffer)

namespace Transcription

/-- What became of a piece. -/
inductive Outcome (T : Type) : Type where
  /-- no model was loaded -/
  | skipped : Outcome T
  /-- it was not transcribed -/
  | failed (e : TranscriptionError) : Outcome T
  /-- what was heard is no speech -/
  | filtered (heard : Heard) : Outcome T
  /-- it is an echo -/
  | echo (heard : Heard) : Outcome T
  /-- a line of the transcript, the `number`th of all -/
  | published (number : ℕ) (update : TranscriptUpdate T) : Outcome T

/-- Where the worker is. -/
inductive WorkerStage (T : Type) : Type where
  /-- the task has not been started -/
  | unborn : WorkerStage T
  /-- it waits for the engine -/
  | starting : WorkerStage T
  /-- it takes the next piece, or waits for a segment -/
  | idle : WorkerStage T
  /-- it splits a segment -/
  | splitting (chunk : AudioChunk T) : WorkerStage T
  /-- it looks whether a model is loaded -/
  | looking (piece : PendingChunk T) : WorkerStage T
  /-- it waits for the engine to transcribe a piece -/
  | transcribing (piece : PendingChunk T) (samples : Option (List Float32)) : WorkerStage T
  /-- it has heard speech and needs a number for it -/
  | numbering (piece : PendingChunk T) (samples : Option (List Float32)) (heard : Heard) :
    WorkerStage T
  /-- it waits for the diarizer -/
  | diarizing (piece : PendingChunk T) (samples : Option (List Float32)) (heard : Heard)
    (number : ℕ) : WorkerStage T
  /-- it has ended as there is nothing left to do -/
  | finished : WorkerStage T
  /-- it was aborted, or the engine has failed, or there never was a task -/
  | gone : WorkerStage T

/-- Where the forwarding task is. -/
inductive ForwarderStage (T : Type) : Type where
  /-- it waits for a segment -/
  | receiving : ForwarderStage T
  /-- it has counted a segment and passes it on -/
  | carrying (chunk : AudioChunk T) : ForwarderStage T
  /-- it has ended -/
  | ended : ForwarderStage T

/-- What a recording has of its own. -/
structure Session (T : Type) : Type where
  /-- the pipeline holds its sender -/
  pipelineOpen : Bool
  /-- the channel from the pipeline -/
  raw : List (AudioChunk T)
  /-- the forwarding task -/
  forwarder : ForwarderStage T
  /-- the channel to the worker -/
  counted : List (AudioChunk T)
  /-- the worker -/
  worker : WorkerStage T
  /-- the pieces it has not looked at -/
  pending : List (PendingChunk T)
  /-- `echo_dedup` -/
  echoDedup : Buffer T
  /-- what the pipeline has sent -/
  sent : List (AudioChunk T)
  /-- the segments that the worker has split, with their pieces -/
  split : List (AudioChunk T × List (PendingChunk T))
  /-- the pieces that it has been through, and what became of them -/
  log : List (PendingChunk T × Outcome T)
  /-- what was sent and never reached the worker -/
  lost : List (AudioChunk T)
  /-- how much of that had been counted -/
  stranded : ℕ

/-- What all recordings share. -/
structure Counters : Type where
  /-- `QUEUE_DEPTH` -/
  queueDepth : ℕ
  /-- `SEQUENCE_COUNTER`, as if it had no end -/
  sequenceCounter : ℕ
  /-- `SPEECH_DETECTED_EMITTED` -/
  speechDetectedEmitted : Bool

namespace Session

variable {T : Type}

/-- No recording. -/
def absent : Session T := ⟨false, [], .ended, [], .gone, [], [], [], [], [], [], 0⟩

/-- The channels and the forwarding task of a new recording. -/
def fresh : Session T := ⟨true, [], .receiving, [], .unborn, [], [], [], [], [], [], 0⟩

/-- The segment that the forwarding task carries. -/
def carried (s : Session T) : List (AudioChunk T) :=
  match s.forwarder with
  | .carrying chunk => [chunk]
  | _ => []

/-- The segment that the worker splits. -/
def inHand (s : Session T) : List (AudioChunk T) :=
  match s.worker with
  | .splitting chunk => [chunk]
  | _ => []

/-- The piece that the worker is at. -/
def current (s : Session T) : List (PendingChunk T) :=
  match s.worker with
  | .looking piece | .transcribing piece _ | .numbering piece _ _ | .diarizing piece _ _ _ => [piece]
  | _ => []

/-- Nobody takes what is passed on. -/
def receiverDropped (s : Session T) : Bool :=
  match s.worker with
  | .finished | .gone => true
  | _ => false

theorem receiverDropped_eq_true_iff {s : Session T} :
    s.receiverDropped = true ↔ s.worker = .finished ∨ s.worker = .gone := by
  cases h : s.worker <;> simp [receiverDropped, h]

theorem receiverDropped_eq_false_iff {s : Session T} :
    s.receiverDropped = false ↔ s.worker ≠ .finished ∧ s.worker ≠ .gone := by
  cases h : s.worker <;> simp [receiverDropped, h]

/-- The worker has been through a piece. -/
def settle (s : Session T) (piece : PendingChunk T) (outcome : Outcome T) : Session T :=
  { s with worker := .idle, log := s.log ++ [(piece, outcome)] }

/-- The worker is no more, and its channel and the pieces it had neither. -/
def dropReceiver (s : Session T) : Session T :=
  { s with
    worker := .gone, counted := [], pending := [], lost := s.lost ++ s.inHand ++ s.counted,
    stranded := s.stranded + s.counted.length }

/-- The pipeline sends a segment. -/
def send (s : Session T) (chunk : AudioChunk T) : Option (Session T) :=
  if s.pipelineOpen then
    match s.forwarder with
    | .ended => some { s with sent := s.sent ++ [chunk], lost := s.lost ++ [chunk] }
    | _ => some { s with sent := s.sent ++ [chunk], raw := s.raw ++ [chunk] }
  else none

/-- A step of the forwarding task. -/
def forward (s : Session T) (c : Counters) : Option (Counters × Session T) :=
  match s.forwarder with
  | .receiving =>
    match s.raw with
    | chunk :: rest =>
      some ({ c with queueDepth := c.queueDepth + 1 }, { s with raw := rest, forwarder := .carrying chunk })
    | [] => if s.pipelineOpen then none else some (c, { s with forwarder := .ended })
  | .carrying chunk =>
    if s.receiverDropped then
      some (c, { s with
        forwarder := .ended, raw := [], lost := s.lost ++ chunk :: s.raw, stranded := s.stranded + 1 })
    else some (c, { s with forwarder := .receiving, counted := s.counted ++ [chunk] })
  | .ended => none

/-- The worker, where it takes the next piece. -/
def takeNext (s : Session T) (c : Counters) : Option (Counters × Session T) :=
  match s.pending, s.counted with
  | piece :: rest, _ => some (c, { s with worker := .looking piece, pending := rest })
  | [], chunk :: rest =>
    some ({ c with queueDepth := c.queueDepth - 1 }, { s with worker := .splitting chunk, counted := rest })
  | [], [] =>
    match s.forwarder with
    | .ended => some (c, { s with worker := .finished })
    | _ => none

end Session

/-- The message of `speech-detected`. -/
def speechMessage : String := "Speech activity detected"

section Code

variable {T : Type} [Instant T] [LE T] [LT T] [DecidableLE T] [DecidableLT T] [OfScientific T]

namespace Session

/-- The worker, when the engine has answered. -/
def hear (ctx : WorkerContext) (env : Surroundings) (s : Session T) (c : Counters)
    (piece : PendingChunk T) (samples : Option (List Float32)) :
    Counters × Session T × List (WorkerEvent T) :=
  match transcribeChunkWithProvider ctx env piece.chunk with
  | (.error e, events) => (c, s.settle piece (.failed e), events ++ e.warning)
  | (.ok heard, events) =>
    if heard.isSpeech ctx.tables then
      let (buffer, decision) := EchoDedup.check ctx.tables s.echoDedup (segmentOf piece heard.text)
      let s := { s with echoDedup := buffer }
      match decision with
      | .dropAsMicEcho => (c, s.settle piece (.echo heard), events)
      | .accept =>
        ({ c with speechDetectedEmitted := true }, { s with worker := .numbering piece samples heard },
          events ++ if c.speechDetectedEmitted then [] else [.speechDetected speechMessage])
    else (c, s.settle piece (.filtered heard), events)

/-- A step of the worker. -/
def work (ctx : WorkerContext) (env : Surroundings) (s : Session T) (c : Counters) :
    Option (Counters × Session T × List (WorkerEvent T)) :=
  match s.worker with
  | .unborn | .finished | .gone => none
  | .starting =>
    match env.engine with
    | .ok () => some (c, { s with worker := .idle }, [])
    | .error e => some (c, s.dropReceiver, [.transcriptionError e
      ("Recording failed: Unable to initialize speech recognition. " ++
        "Please check your model settings.") true])
  | .idle => (s.takeNext c).map fun (c, s) => (c, s, [])
  | .splitting chunk =>
    match splitChunkBySpeaker env.diarizer chunk with
    | some pieces => some (c, { s with
        worker := .idle, pending := s.pending ++ pieces, split := s.split ++ [(chunk, pieces)] }, [])
    -- a slice out of range ends the task
    | none => some (c, s.dropReceiver, [])
  | .looking piece =>
    if env.isModelLoaded then
      some (c, { s with worker := .transcribing piece (diarizationSamples env piece) }, [])
    else some (c, s.settle piece .skipped, [])
  | .transcribing piece samples => some (hear ctx env s c piece samples)
  | .numbering piece samples heard =>
    some ({ c with sequenceCounter := c.sequenceCounter + 1 },
      { s with worker := .diarizing piece samples heard c.sequenceCounter }, [])
  | .diarizing piece samples heard number =>
    let update := updateOf env piece samples heard (UInt64.ofNat number)
    let buffer := EchoDedup.record ctx.tables s.echoDedup (segmentOf piece update.text)
    some (c, { s with echoDedup := buffer }.settle piece (.published number update),
      [.transcriptUpdate update])

end Session

/-- What can happen in a session. -/
inductive Action (T : Type) : Type where
  /-- `start_transcription_task` -/
  | spawn : Action T
  /-- the start fails before that -/
  | giveUp : Action T
  /-- the pipeline sends a segment -/
  | send (chunk : AudioChunk T) : Action T
  /-- the pipeline drops its sender -/
  | close : Action T
  /-- the forwarding task takes a step -/
  | forward : Action T
  /-- the worker takes a step -/
  | work (env : Surroundings) : Action T
  /-- the worker is aborted -/
  | abort : Action T

/-- What an action does. -/
def act (ctx : WorkerContext) (c : Counters) (s : Session T) :
    Action T → Option (Counters × Session T × List (WorkerEvent T))
  | .spawn =>
    match s.worker with
    | .unborn => some (c, { s with worker := .starting }, [])
    | _ => none
  | .giveUp =>
    match s.worker with
    | .unborn => some (c, s.dropReceiver, [])
    | _ => none
  | .send chunk => (s.send chunk).map fun s => (c, s, [])
  | .close => if s.pipelineOpen then some (c, { s with pipelineOpen := false }, []) else none
  | .forward => (s.forward c).map fun (c, s) => (c, s, [])
  | .work env => s.work ctx env c
  | .abort =>
    match s.worker with
    -- it is not where it waits
    | .unborn | .numbering _ _ _ | .finished | .gone => none
    | _ => some (c, s.dropReceiver, [])

/-- All sessions. -/
structure Backlog (T : Type) : Type where
  /-- what they share -/
  counters : Counters
  /-- the sessions by number -/
  sessions : ℕ → Session T
  /-- how many there are -/
  started : ℕ
  /-- what the user interface is told, and by which session -/
  events : List (ℕ × WorkerEvent T)

/-- When the application has started. -/
def Backlog.initial : Backlog T := ⟨⟨0, 0, false⟩, fun _ => .absent, 0, []⟩

/-- What happens next. -/
inductive Label (T : Type) : Type where
  /-- a recording starts: `reset_queue_depth` and the channels -/
  | start : Label T
  /-- `reset_speech_detected_flag` -/
  | resetSpeechDetectedFlag : Label T
  /-- something happens in a session -/
  | act (session : ℕ) (action : Action T) : Label T

/-- What the sessions are next. -/
def Backlog.next (ctx : WorkerContext) (b : Backlog T) : Label T → Option (Backlog T)
  | .start => some { b with
      counters := { b.counters with queueDepth := 0 }
      sessions := Function.update b.sessions b.started .fresh
      started := b.started + 1 }
  | .resetSpeechDetectedFlag =>
    some { b with counters := { b.counters with speechDetectedEmitted := false } }
  | .act k action =>
    (act ctx b.counters (b.sessions k) action).map fun (c, s, events) =>
      { b with
        counters := c, sessions := Function.update b.sessions k s,
        events := b.events ++ events.map fun event => (k, event) }

/-- What they are after all that, if it can happen. -/
def Backlog.runAll (ctx : WorkerContext) (b : Backlog T) : List (Label T) → Option (Backlog T)
  | [] => some b
  | label :: labels => (b.next ctx label).bind fun b => b.runAll ctx labels

/-! ## What an action does -/

/-- All that can happen to a session. -/
inductive Moves (ctx : WorkerContext) (c : Counters) (s : Session T) :
    Counters → Session T → List (WorkerEvent T) → Prop where
  /-- the worker's task begins -/
  | spawned : s.worker = .unborn → Moves ctx c s c { s with worker := .starting } []
  /-- the engine is up -/
  | ready : s.worker = .starting → Moves ctx c s c { s with worker := .idle } []
  /-- there will be no worker any more -/
  | dropped {events : List (WorkerEvent T)} :
      (∀ piece samples heard, s.worker ≠ .numbering piece samples heard) → s.receiverDropped = false →
      (∀ event ∈ events, event.isTrouble = true) → Moves ctx c s c s.dropReceiver events
  /-- the pipeline sends a segment -/
  | sent (chunk : AudioChunk T) : s.pipelineOpen = true → s.forwarder ≠ .ended →
      Moves ctx c s c { s with sent := s.sent ++ [chunk], raw := s.raw ++ [chunk] } []
  /-- it does so when nobody listens -/
  | unheard (chunk : AudioChunk T) : s.pipelineOpen = true → s.forwarder = .ended →
      Moves ctx c s c { s with sent := s.sent ++ [chunk], lost := s.lost ++ [chunk] } []
  /-- it drops its sender -/
  | closed : s.pipelineOpen = true → Moves ctx c s c { s with pipelineOpen := false } []
  /-- the forwarding task counts a segment -/
  | counted {chunk : AudioChunk T} {rest : List (AudioChunk T)} : s.forwarder = .receiving →
      s.raw = chunk :: rest →
      Moves ctx c s { c with queueDepth := c.queueDepth + 1 }
        { s with raw := rest, forwarder := .carrying chunk } []
  /-- it ends, as there will be nothing more to pass on -/
  | forwarderEnds : s.forwarder = .receiving → s.raw = [] → s.pipelineOpen = false →
      Moves ctx c s c { s with forwarder := .ended } []
  /-- it passes the segment on -/
  | passedOn {chunk : AudioChunk T} : s.forwarder = .carrying chunk → s.receiverDropped = false →
      Moves ctx c s c { s with forwarder := .receiving, counted := s.counted ++ [chunk] } []
  /-- it ends, as there is nobody to pass it on to -/
  | undeliverable {chunk : AudioChunk T} : s.forwarder = .carrying chunk → s.receiverDropped = true →
      Moves ctx c s c
        { s with
          forwarder := .ended, raw := [], lost := s.lost ++ chunk :: s.raw, stranded := s.stranded + 1 } []
  /-- the worker takes the next piece -/
  | takes {piece : PendingChunk T} {rest : List (PendingChunk T)} : s.worker = .idle →
      s.pending = piece :: rest →
      Moves ctx c s c { s with worker := .looking piece, pending := rest } []
  /-- it takes the next segment -/
  | dequeues {chunk : AudioChunk T} {rest : List (AudioChunk T)} : s.worker = .idle → s.pending = [] →
      s.counted = chunk :: rest →
      Moves ctx c s { c with queueDepth := c.queueDepth - 1 }
        { s with worker := .splitting chunk, counted := rest } []
  /-- it ends, as there is nothing left to do -/
  | finishes : s.worker = .idle → s.pending = [] → s.counted = [] → s.forwarder = .ended →
      Moves ctx c s c { s with worker := .finished } []
  /-- it has split a segment -/
  | splits {chunk : AudioChunk T} {diarizer : Option Diarizer} {pieces : List (PendingChunk T)} :
      s.worker = .splitting chunk → splitChunkBySpeaker diarizer chunk = some pieces →
      Moves ctx c s c { s with
        worker := .idle, pending := s.pending ++ pieces, split := s.split ++ [(chunk, pieces)] } []
  /-- there is a model -/
  | looks {piece : PendingChunk T} (samples : Option (List Float32)) : s.worker = .looking piece →
      Moves ctx c s c { s with worker := .transcribing piece samples } []
  /-- there is no model -/
  | skips {piece : PendingChunk T} : s.worker = .looking piece →
      Moves ctx c s c (s.settle piece .skipped) []
  /-- the engine has failed -/
  | fails {piece : PendingChunk T} {samples : Option (List Float32)} {events : List (WorkerEvent T)}
      (e : TranscriptionError) : s.worker = .transcribing piece samples →
      (∀ event ∈ events, event.isTrouble = true) →
      Moves ctx c s c (s.settle piece (.failed e)) events
  /-- what was heard is no speech -/
  | filters {piece : PendingChunk T} {samples : Option (List Float32)} {heard : Heard} :
      s.worker = .transcribing piece samples → heard.isSpeech ctx.tables = false →
      Moves ctx c s c (s.settle piece (.filtered heard)) []
  /-- it is an echo -/
  | echoes {piece : PendingChunk T} {samples : Option (List Float32)} {heard : Heard} :
      s.worker = .transcribing piece samples → heard.isSpeech ctx.tables = true →
      (EchoDedup.check ctx.tables s.echoDedup (segmentOf piece heard.text)).2 = .dropAsMicEcho →
      Moves ctx c s c ({ s with
        echoDedup := (EchoDedup.check ctx.tables s.echoDedup (segmentOf piece heard.text)).1
        }.settle piece (.echo heard)) []
  /-- it is speech -/
  | hears {piece : PendingChunk T} {samples : Option (List Float32)} {heard : Heard} :
      s.worker = .transcribing piece samples → heard.isSpeech ctx.tables = true →
      (EchoDedup.check ctx.tables s.echoDedup (segmentOf piece heard.text)).2 = .accept →
      Moves ctx c s { c with speechDetectedEmitted := true } { s with
        worker := .numbering piece samples heard,
        echoDedup := (EchoDedup.check ctx.tables s.echoDedup (segmentOf piece heard.text)).1 }
        (if c.speechDetectedEmitted then [] else [.speechDetected speechMessage])
  /-- it gets its number -/
  | numbers {piece : PendingChunk T} {samples : Option (List Float32)} {heard : Heard} :
      s.worker = .numbering piece samples heard →
      Moves ctx c s { c with sequenceCounter := c.sequenceCounter + 1 }
        { s with worker := .diarizing piece samples heard c.sequenceCounter } []
  /-- it is published -/
  | publishes {piece : PendingChunk T} {samples : Option (List Float32)} {heard : Heard} {number : ℕ}
      (env : Surroundings) : s.worker = .diarizing piece samples heard number →
      Moves ctx c s c ({ s with
        echoDedup := EchoDedup.record ctx.tables s.echoDedup (segmentOf piece heard.text) }.settle piece
          (.published number (updateOf env piece samples heard (UInt64.ofNat number))))
        [.transcriptUpdate (updateOf env piece samples heard (UInt64.ofNat number))]

variable {ctx : WorkerContext} {env : Surroundings} {c c' : Counters} {s s' : Session T}
  {events : List (WorkerEvent T)}

theorem moves_hear (ctx : WorkerContext) (env : Surroundings) (c : Counters) {piece : PendingChunk T}
    {samples : Option (List Float32)} (hworker : s.worker = .transcribing piece samples) :
    Moves ctx c s (s.hear ctx env c piece samples).1 (s.hear ctx env c piece samples).2.1
      (s.hear ctx env c piece samples).2.2 := by
  unfold Session.hear
  have htrouble := isTrouble_transcribe ctx env piece.chunk
  generalize transcribeChunkWithProvider ctx env piece.chunk = answer at htrouble ⊢
  rcases answer with ⟨e | heard, events⟩
  · refine .fails e hworker fun event hevent => ?_
    exact (List.mem_append.mp hevent).elim (htrouble.1 event) (isTrouble_warning e event)
  obtain rfl : events = [] := htrouble.2 heard rfl
  cases hspeech : heard.isSpeech ctx.tables with
  | false =>
    simp only [hspeech]
    exact .filters hworker hspeech
  | true =>
    rcases hcheck : EchoDedup.check ctx.tables s.echoDedup (segmentOf piece heard.text) with
      ⟨buffer, decision⟩
    simp only [hspeech, hcheck, if_true]
    have hbuffer := congrArg Prod.fst hcheck
    have hdecision := congrArg Prod.snd hcheck
    subst hbuffer
    cases decision with
    | accept => exact .hears hworker hspeech hdecision
    | dropAsMicEcho => exact .echoes hworker hspeech hdecision

theorem moves_of_forward (h : s.forward c = some (c', s')) : Moves ctx c s c' s' [] := by
  unfold Session.forward at h
  split at h
  next hforwarder =>
    split at h
    next chunk rest hraw =>
      obtain ⟨rfl, rfl⟩ := Prod.mk.inj (Option.some.inj h)
      exact .counted hforwarder hraw
    next hraw =>
      split at h
      · cases h
      next hclosed =>
        obtain ⟨rfl, rfl⟩ := Prod.mk.inj (Option.some.inj h)
        exact .forwarderEnds hforwarder hraw (by simpa using hclosed)
  next chunk hforwarder =>
    split at h
    next hdropped =>
      obtain ⟨rfl, rfl⟩ := Prod.mk.inj (Option.some.inj h)
      exact .undeliverable hforwarder hdropped
    next hdropped =>
      obtain ⟨rfl, rfl⟩ := Prod.mk.inj (Option.some.inj h)
      exact .passedOn hforwarder (by simpa using hdropped)
  · cases h

theorem moves_of_takeNext (hworker : s.worker = .idle) (h : s.takeNext c = some (c', s')) :
    Moves ctx c s c' s' [] := by
  unfold Session.takeNext at h
  split at h
  next piece rest _ hpending =>
    obtain ⟨rfl, rfl⟩ := Prod.mk.inj (Option.some.inj h)
    exact .takes hworker hpending
  next chunk rest hpending hcounted =>
    obtain ⟨rfl, rfl⟩ := Prod.mk.inj (Option.some.inj h)
    exact .dequeues hworker hpending hcounted
  next hpending hcounted =>
    split at h
    next hforwarder =>
      obtain ⟨rfl, rfl⟩ := Prod.mk.inj (Option.some.inj h)
      exact .finishes hworker hpending hcounted hforwarder
    · cases h

theorem moves_of_work (h : s.work ctx env c = some (c', s', events)) : Moves ctx c s c' s' events := by
  unfold Session.work at h
  cases hworker : s.worker with
  | unborn | finished | gone => simp [hworker] at h
  | starting =>
    rw [hworker] at h
    cases hengine : env.engine with
    | ok _ =>
      obtain ⟨rfl, rfl, rfl⟩ : c = c' ∧ _ = s' ∧ [] = events := by simpa [hengine] using h
      exact .ready hworker
    | error e =>
      obtain ⟨rfl, rfl, rfl⟩ : c = c' ∧ s.dropReceiver = s' ∧ _ = events := by
        simpa only [hengine, Option.some.injEq, Prod.mk.injEq] using h
      exact .dropped (by simp [hworker]) (by simp [Session.receiverDropped, hworker])
        (by simp [WorkerEvent.isTrouble])
  | idle =>
    rw [hworker] at h
    obtain ⟨⟨_, _⟩, htake, hmoved⟩ := Option.map_eq_some_iff.mp h
    obtain ⟨rfl, rfl, rfl⟩ := by simpa only [Prod.mk.injEq] using hmoved
    exact moves_of_takeNext hworker htake
  | splitting chunk =>
    rw [hworker] at h
    cases hsplit : splitChunkBySpeaker env.diarizer chunk with
    | some pieces =>
      obtain ⟨rfl, rfl, rfl⟩ : c = c' ∧ _ = s' ∧ [] = events := by simpa [hsplit] using h
      exact .splits hworker hsplit
    | none =>
      obtain ⟨rfl, rfl, rfl⟩ : c = c' ∧ s.dropReceiver = s' ∧ [] = events := by
        simpa [hsplit] using h
      exact .dropped (by simp [hworker]) (by simp [Session.receiverDropped, hworker]) (by simp)
  | looking piece =>
    rw [hworker] at h
    cases hloaded : env.isModelLoaded with
    | true =>
      obtain ⟨rfl, rfl, rfl⟩ : c = c' ∧ _ = s' ∧ [] = events := by simpa [hloaded] using h
      exact .looks _ hworker
    | false =>
      obtain ⟨rfl, rfl, rfl⟩ : c = c' ∧ s.settle piece .skipped = s' ∧ [] = events := by
        simpa [hloaded] using h
      exact .skips hworker
  | transcribing piece samples =>
    rw [hworker] at h
    have hheard := moves_hear ctx env c hworker
    rw [Option.some.inj h] at hheard
    exact hheard
  | numbering piece samples heard =>
    rw [hworker] at h
    obtain ⟨rfl, rfl, rfl⟩ := by simpa only [Option.some.injEq, Prod.mk.injEq] using h
    exact .numbers hworker
  | diarizing piece samples heard number =>
    rw [hworker] at h
    obtain ⟨rfl, rfl, rfl⟩ := by simpa only [Option.some.injEq, Prod.mk.injEq] using h
    exact .publishes env hworker

/-- **What an action does** is one of these. -/
theorem moves_of_act {action : Action T} (h : act ctx c s action = some (c', s', events)) :
    Moves ctx c s c' s' events := by
  cases action with
  | spawn =>
    simp only [act] at h
    split at h
    next hworker =>
      obtain ⟨rfl, rfl, rfl⟩ := by simpa only [Option.some.injEq, Prod.mk.injEq] using h
      exact .spawned hworker
    · cases h
  | giveUp =>
    simp only [act] at h
    split at h
    next hworker =>
      obtain ⟨rfl, rfl, rfl⟩ := by simpa only [Option.some.injEq, Prod.mk.injEq] using h
      exact .dropped (by simp [hworker]) (by simp [Session.receiverDropped, hworker]) (by simp)
    · cases h
  | send chunk =>
    obtain ⟨_, hsend, hmoved⟩ := Option.map_eq_some_iff.mp h
    obtain ⟨rfl, rfl, rfl⟩ := by simpa only [Prod.mk.injEq] using hmoved
    unfold Session.send at hsend
    split at hsend
    next hopen =>
      split at hsend
      next hforwarder =>
        obtain rfl := Option.some.inj hsend
        exact .unheard chunk hopen hforwarder
      next hforwarder =>
        obtain rfl := Option.some.inj hsend
        exact .sent chunk hopen hforwarder
    · cases hsend
  | close =>
    simp only [act] at h
    split at h
    next hopen =>
      obtain ⟨rfl, rfl, rfl⟩ := by simpa only [Option.some.injEq, Prod.mk.injEq] using h
      exact .closed hopen
    · cases h
  | forward =>
    obtain ⟨⟨_, _⟩, hforward, hmoved⟩ := Option.map_eq_some_iff.mp h
    obtain ⟨rfl, rfl, rfl⟩ := by simpa only [Prod.mk.injEq] using hmoved
    exact moves_of_forward hforward
  | work env => exact moves_of_work h
  | abort =>
    simp only [act] at h
    split at h
    all_goals try cases h
    next _ hnumbering hfinished hgone =>
      exact .dropped hnumbering (Session.receiverDropped_eq_false_iff.mpr ⟨hfinished, hgone⟩) (by simp)

/-! ## Steps and runs -/

variable {b b' : Backlog T} {label : Label T} {labels : List (Label T)}

/-- What the sessions are next. -/
theorem Backlog.next_cases (h : b.next ctx label = some b') :
    (label = .start ∧ b' = { b with
      counters := { b.counters with queueDepth := 0 }
      sessions := Function.update b.sessions b.started .fresh
      started := b.started + 1 }) ∨
    (label = .resetSpeechDetectedFlag ∧
      b' = { b with counters := { b.counters with speechDetectedEmitted := false } }) ∨
    ∃ k action c s events, label = .act k action ∧
      Moves ctx b.counters (b.sessions k) c s events ∧
      b' = { b with
        counters := c, sessions := Function.update b.sessions k s,
        events := b.events ++ events.map fun event => (k, event) } := by
  cases label with
  | start => exact .inl ⟨rfl, (Option.some.inj h).symm⟩
  | resetSpeechDetectedFlag => exact .inr (.inl ⟨rfl, (Option.some.inj h).symm⟩)
  | act k action =>
    obtain ⟨⟨c, s, events⟩, hact, rfl⟩ := Option.map_eq_some_iff.mp h
    exact .inr (.inr ⟨k, action, c, s, events, rfl, moves_of_act hact, rfl⟩)

theorem not_moves_absent : ¬Moves ctx c .absent c' s' events := by
  intro hmove
  cases hmove <;> simp_all [Session.absent, Session.receiverDropped]

/-- Only recordings that have started are there. -/
def Backlog.Absent (b : Backlog T) : Prop := ∀ k, b.started ≤ k → b.sessions k = .absent

theorem absent_next (hnext : b.next ctx label = some b') (h : b.Absent) : b'.Absent := by
  obtain ⟨-, rfl⟩ | ⟨-, rfl⟩ | ⟨k, action, c, s, events, -, hmove, rfl⟩ := Backlog.next_cases hnext
  · intro k hk
    have hlt : b.started < k := hk
    simp only [Function.update_of_ne hlt.ne']
    exact h k hlt.le
  · exact h
  · intro j hj
    obtain rfl | hne := eq_or_ne j k
    · rw [h j hj] at hmove
      exact absurd hmove not_moves_absent
    · simp only [Function.update_of_ne hne]
      exact h j hj

/-- What each step keeps is kept by a run. -/
theorem Backlog.runAll_induct {I : Backlog T → Prop} (h : b.runAll ctx labels = some b')
    (hstep : ∀ label ∈ labels, ∀ b b', b.next ctx label = some b' → I b → I b') (hb : I b) : I b' := by
  induction labels generalizing b with
  | nil =>
    obtain rfl := Option.some.inj h
    exact hb
  | cons label labels ih =>
    obtain ⟨b₁, hnext, hrun⟩ := Option.bind_eq_some_iff.mp h
    exact ih hrun (fun label hmem => hstep label (List.mem_cons_of_mem _ hmem))
      (hstep label List.mem_cons_self b b₁ hnext hb)

/-- What a new recording has, and each action keeps, all sessions have. -/
theorem Backlog.sessions_induct {P : Session T → Prop} (h : b.runAll ctx labels = some b')
    (hfresh : P .fresh)
    (hmoves : ∀ c s c' s' events, Moves ctx c s c' s' events → P s → P s')
    (hb : ∀ k, P (b.sessions k)) : ∀ k, P (b'.sessions k) := by
  refine Backlog.runAll_induct (I := fun b => ∀ k, P (b.sessions k)) h (fun label _ b b' hnext hb => ?_) hb
  obtain ⟨-, rfl⟩ | ⟨-, rfl⟩ | ⟨k, action, c, s, events, -, hmove, rfl⟩ := Backlog.next_cases hnext
  · exact (Function.forall_update_iff _ fun _ => P).mpr ⟨hfresh, fun k _ => hb k⟩
  · exact hb
  · exact (Function.forall_update_iff _ fun _ => P).mpr
      ⟨hmoves _ _ _ _ _ hmove (hb k), fun j _ => hb j⟩

end Code

end Transcription

end MeetilyLocal
