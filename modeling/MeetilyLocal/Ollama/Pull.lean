import MeetilyLocal.Library.JsonValue
import MeetilyLocal.Library.LineBuffer
import MeetilyLocal.Library.Utf8Decoder

/-!
# Pulling an Ollama model

What one call of `pull_ollama_model_with_progress` (`ollama/client.rs`) reads from the server and
emits: the stream of status lines, in chunks that the network cuts as it likes, each decoded on its
own, and the percentages that are reported from it.

The percentages are compared with an unsigned subtraction, which goes wrong when they fall
(`Progress.report`); where they never do, nothing underflows (`readLines_of_neverFalls`). Where no
chunk ends within a character, what is emitted is what the stream as a whole says
(`outcome_joined`).
-/

namespace MeetilyLocal

namespace Ollama

/-- What the program is built with. -/
structure Build : Type where
  /-- arithmetic that overflows panics, as in a debug build, and wraps otherwise -/
  overflowChecks : Bool
  /-- `serde_json::from_str` -/
  fromStr : List Char → Option Json.Value

/-- An event as the sink gets it. -/
structure PullEvent : Type where
  /-- its name -/
  name : String
  /-- what it says -/
  payload : Json.Value

/-- The event for a percentage. -/
def progressEvent (modelName : String) (progress : UInt8) : PullEvent :=
  ⟨"ollama-model-download-progress", .object (Json.ofEntries
    [("modelName", .string modelName), ("progress", .number (.posInt progress.toUInt64))])⟩

/-- The event for the end of a pull. -/
def completeEvent (modelName : String) : PullEvent :=
  ⟨"ollama-model-download-complete", .object (Json.ofEntries [("modelName", .string modelName)])⟩

/-- The event for a failure. -/
def errorEvent (modelName error : String) : PullEvent :=
  ⟨"ollama-model-download-error", .object (Json.ofEntries
    [("modelName", .string modelName), ("error", .string error)])⟩

/-! ## Status lines -/

/-- Why the reading of lines ends early. -/
inductive Stop : Type where
  /-- a subtraction panics -/
  | overflow : Stop
  /-- a line says that there is an error -/
  | error : String → Stop

/-- How far a call is. -/
structure Progress : Type where
  /-- the events that it has emitted -/
  emitted : List PullEvent
  /-- the percentage that it last emitted -/
  lastProgress : UInt8
  /-- a subtraction has gone below zero -/
  underflowed : Bool

/-- No event has been emitted. -/
def Progress.start : Progress := ⟨[], 0, false⟩

/-- An event is emitted. -/
def Progress.emit (progress : Progress) (event : PullEvent) : Progress :=
  { progress with emitted := progress.emitted ++ [event] }

/-- A percentage is emitted if it changed. -/
def Progress.report (b : Build) (modelName : String) (progress : Progress) (percent : UInt8) :
    Progress × Option Stop :=
  if percent = progress.lastProgress then (progress, none)
  else
    let below := decide (percent < progress.lastProgress)
    let subtracted := { progress with underflowed := progress.underflowed || below }
    if below && b.overflowChecks then (subtracted, some .overflow)
    else if 1 ≤ percent - progress.lastProgress ∨ percent = 100 then
      ({ subtracted.emit (progressEvent modelName percent) with lastProgress := percent }, none)
    else (subtracted, none)

/-- `((completed as f64 / total as f64) * 100.0) as u8` -/
def percentage (completed total : UInt64) : UInt8 :=
  ((completed.toFloat / total.toFloat) * 100.0).toUInt8

/-- The percentage that a status tells, if it tells one. -/
def percentOf (json : Json.Value) : Option UInt8 :=
  match (json.get "completed").bind Json.Value.deserializeUInt64,
    (json.get "total").bind Json.Value.deserializeUInt64 with
  | some completed, some total => if 0 < total then some (percentage completed total) else none
  | _, _ => none

/-- The error that a status tells, if it tells one. -/
def errorOf (json : Json.Value) : Option String :=
  (json.get "error").bind Json.Value.deserializeString

/-- The status that a line is, if it is one. -/
def Build.statusOf (b : Build) (line : List Char) : Option Json.Value :=
  if (trim line).isEmpty then none else b.fromStr (trim line)

/-- What a status does: its percentage first, then its error. -/
def Progress.readStatus (b : Build) (modelName : String) (progress : Progress)
    (json : Json.Value) : Progress × Option Stop :=
  let reported :=
    match percentOf json with
    | some percent => progress.report b modelName percent
    | none => (progress, none)
  match reported with
  | (progress, some stop) => (progress, some stop)
  | (progress, none) => (progress, (errorOf json).map fun e => .error s!"Ollama error: {e}")

/-- What a line does. -/
def Progress.readLine (b : Build) (modelName : String) (progress : Progress) (line : List Char) :
    Progress × Option Stop :=
  match b.statusOf line with
  | none => (progress, none)
  | some json => progress.readStatus b modelName json

/-- What a chunk does: it is decoded and the lines that it completes are read. -/
def readChunk (b : Build) (modelName : String) (state : Progress × List Char)
    (chunk : List UInt8) : (Progress × List Char) × Option Stop :=
  LineBuffer.feed (Progress.readLine b modelName) state (Utf8.fromUtf8Lossy chunk)

/-- The lines in a buffer are read one by one: the first is taken out of it, and read, as long as
there is one. -/
theorem readBuffer_eq (b : Build) (modelName : String) (progress : Progress)
    (buffer : List Char) :
    LineBuffer.feed (Progress.readLine b modelName) (progress, buffer) [] =
      match buffer.dropWhile (· ≠ '\n') with
      | [] => ((progress, buffer), none)
      | _ :: rest =>
        match progress.readLine b modelName (buffer.takeWhile (· ≠ '\n')) with
        | (progress, none) => LineBuffer.feed (Progress.readLine b modelName) (progress, rest) []
        | (progress, some stop) => ((progress, (LineBuffer.cutLines rest).2), some stop) := by
  simp only [LineBuffer.feed, List.append_nil]
  rw [LineBuffer.cutLines_eq]
  cases buffer.dropWhile (· ≠ '\n') with
  | nil => rfl
  | cons c rest =>
    rcases hline : progress.readLine b modelName (buffer.takeWhile (· ≠ '\n')) with ⟨p, _ | stop⟩
    · simp only [LineBuffer.foldUntil_cons_of_none hline]
    · simp only [LineBuffer.foldUntil_cons_of_some hline]

/-! ## A call -/

/-- Why a request is not answered. -/
inductive SendError : Type where
  /-- it takes too long -/
  | timeout : SendError
  /-- the server cannot be reached -/
  | connect : SendError
  /-- something else -/
  | other : String → SendError

/-- An HTTP status. -/
structure Status : Type where
  /-- its code -/
  code : ℕ
  /-- how it is displayed -/
  display : String

/-- `StatusCode::is_success` -/
def Status.isSuccess (status : Status) : Bool := decide (200 ≤ status.code ∧ status.code < 300)

/-- What a server answers. -/
structure Answer : Type where
  /-- the status -/
  status : Status
  /-- the body as a text, if it can be read -/
  text : Option String
  /-- the body as it arrives -/
  chunks : List (List UInt8)
  /-- the error that the stream ends with, if it does -/
  broken : Option String

/-- What a call finds. -/
inductive Server : Type where
  /-- the request fails -/
  | fails : SendError → Server
  /-- the request is answered -/
  | answers : Answer → Server

/-- A call of `pull_ollama_model_with_progress`. -/
structure Pull : Type where
  /-- the model -/
  modelName : String
  /-- where the server is, if it is not on this machine -/
  endpoint : Option String
  /-- what the server does -/
  server : Server

/-- How a call ends. -/
inductive PullExit : Type where
  /-- it returns -/
  | returned : Except String Unit → PullExit
  /-- it panics -/
  | panicked : PullExit

/-- What a call leaves behind. -/
structure Ending : Type where
  /-- how far it came -/
  progress : Progress
  /-- how it ended -/
  exit : PullExit

namespace Pull

variable (b : Build) (p : Pull) (progress : Progress)

/-- The call is refused. -/
def alreadyDownloading : String :=
  let modelName := p.modelName
  s!"Model {modelName} is already being downloaded"

/-- What the caller is told about a request that failed. -/
def sendErrorMessage : SendError → String
  | .timeout => "Download timed out. The model may be large, please try using the Ollama CLI: " ++
      "ollama pull " ++ p.modelName
  | .connect => "Cannot connect to " ++ p.endpoint.getD "http://localhost:11434" ++
      ". Please check if the Ollama server is running."
  | .other e => s!"Failed to download model: {e}"

/-- A request that failed: nothing is emitted. -/
def unsent (e : SendError) : Ending := ⟨.start, .returned (.error (p.sendErrorMessage e))⟩

/-- An answer with an error status. -/
def refused (a : Answer) : Ending :=
  let status := a.status.display
  let errorText := a.text.getD "Unknown error"
  ⟨Progress.start.emit (errorEvent p.modelName s!"HTTP {status}: {errorText}"),
    .returned (.error s!"Failed to pull model (HTTP {status}): {errorText}")⟩

/-- An error in the stream. -/
def stopped (message : String) : Ending :=
  ⟨progress.emit (errorEvent p.modelName message), .returned (.error message)⟩

/-- What a stream that breaks off is reported as. -/
def streamErrorMessage (e : String) : String := s!"Failed to read stream: {e}"

/-- The end of the stream. -/
def completed : Ending := ⟨progress.emit (completeEvent p.modelName), .returned (.ok ())⟩

/-- How a call ends whose reading came so far. -/
def finish (a : Answer) : Progress × Option Stop → Ending
  | (progress, some .overflow) => ⟨progress, .panicked⟩
  | (progress, some (.error message)) => p.stopped progress message
  | (progress, none) =>
    match a.broken with
    | some e => p.stopped progress (streamErrorMessage e)
    | none => p.completed progress

/-- How a call ends that still has some chunks to read. -/
def finishReading (a : Answer) (state : Progress × List Char) (chunks : List (List UInt8)) :
    Ending :=
  let read := LineBuffer.foldUntil (readChunk b p.modelName) state chunks
  p.finish a (read.1.1, read.2)

/-- How a call ends that is not refused. -/
def outcome : Ending :=
  match p.server with
  | .fails e => p.unsent e
  | .answers a =>
    if a.status.isSuccess then p.finishReading b a (.start, []) a.chunks else p.refused a

end Pull

/-! ## How the stream is cut -/

/-- No chunk but the last ends within a character. -/
def Answer.CleanlyCut (a : Answer) : Prop :=
  ∀ chunk ∈ a.chunks.dropLast, Utf8.waits chunk = false

/-- The lines of the stream as a whole. -/
def Answer.lines (a : Answer) : List (List Char) :=
  (LineBuffer.cutLines (Utf8.fromUtf8Lossy a.chunks.flatten)).1

/-- The answer with the same stream in one chunk. -/
def Answer.joined (a : Answer) : Answer := { a with chunks := [a.chunks.flatten] }

/-- The same call, the stream of which comes in one chunk. -/
def Pull.joined (p : Pull) : Pull :=
  { p with server :=
      match p.server with
      | .fails e => .fails e
      | .answers a => .answers a.joined }

section Reading

variable {b : Build} {p : Pull} {a : Answer}

/-- Where no chunk ends within a character, what is read is the lines of the whole stream. -/
theorem finishReading_eq (h : a.CleanlyCut) : p.finishReading b a (.start, []) a.chunks =
    p.finish a (LineBuffer.foldUntil (Progress.readLine b p.modelName) .start a.lines) := by
  have hchunks : LineBuffer.foldUntil (readChunk b p.modelName) (.start, []) a.chunks =
      LineBuffer.foldUntil (LineBuffer.feed (Progress.readLine b p.modelName)) (.start, [])
        (a.chunks.map Utf8.fromUtf8Lossy) :=
    (LineBuffer.foldUntil_map (LineBuffer.feed (Progress.readLine b p.modelName))
      Utf8.fromUtf8Lossy _ _).symm
  have hread := LineBuffer.feed_flatten (f := Progress.readLine b p.modelName) .start
    (rfl : LineBuffer.cutLines [] = ([], [])) (a.chunks.map Utf8.fromUtf8Lossy)
  rw [List.nil_append, Utf8.flatten_fromUtf8Lossy h] at hread
  rw [Pull.finishReading, hchunks, Answer.lines, ← hread]

theorem cleanlyCut_joined (a : Answer) : a.joined.CleanlyCut := nofun

theorem lines_joined (a : Answer) : a.joined.lines = a.lines := by
  simp [Answer.lines, Answer.joined]

/-- The call is answered with success only by streams that are cut between characters. -/
def Pull.CleanlyCut (p : Pull) : Prop :=
  match p.server with
  | .fails _ => True
  | .answers a => a.status.isSuccess = true → a.CleanlyCut

/-- **Chunks do not matter** where none ends within a character. -/
theorem outcome_joined (h : p.CleanlyCut) : p.outcome b = p.joined.outcome b := by
  rcases p with ⟨modelName, endpoint, e | a⟩
  · rfl
  · simp only [Pull.outcome, Pull.joined, Answer.joined]
    split_ifs with hsuccess
    · have hjoined := finishReading_eq (b := b) (p := ⟨modelName, endpoint, .answers a.joined⟩)
        (cleanlyCut_joined a)
      rw [finishReading_eq (h hsuccess)]
      rw [lines_joined] at hjoined
      exact hjoined.symm
    · rfl

end Reading

/-! ## Percentages -/

/-- The percentages that lines tell, up to the first error. -/
def Build.percents (b : Build) : List (List Char) → List UInt8
  | [] => []
  | line :: lines =>
    match b.statusOf line with
    | none => b.percents lines
    | some json =>
      (percentOf json).toList ++ if (errorOf json).isSome then [] else b.percents lines

/-- The percentages of a call never fall. -/
def Pull.NeverFalls (b : Build) (p : Pull) : Prop :=
  match p.server with
  | .fails _ => True
  | .answers a => a.status.isSuccess = true → (b.percents a.lines).Pairwise (· ≤ ·)

/-- The subtractions of a call stay above zero so far. -/
def Ending.Sound (e : Ending) : Prop := e.progress.underflowed = false ∧ e.exit ≠ .panicked

section Percentages

variable {b : Build} {p : Pull} {a : Answer} {modelName : String} {progress : Progress}

/-- A percentage that is not less than the last one is reported without trouble. -/
theorem report_of_le (b : Build) (modelName : String) {percent : UInt8}
    (h : progress.lastProgress ≤ percent) :
    (progress.report b modelName percent).1.underflowed = progress.underflowed ∧
      (progress.report b modelName percent).1.lastProgress ≤ percent ∧
      (progress.report b modelName percent).2 = none := by
  have hbelow : decide (percent < progress.lastProgress) = false :=
    decide_eq_false (UInt8.not_lt.mpr h)
  simp only [Progress.report, hbelow, Bool.or_false, Bool.false_and, Bool.false_eq_true, if_false]
  split_ifs
  · exact ⟨rfl, h, rfl⟩
  · exact ⟨rfl, UInt8.le_refl percent, rfl⟩
  · exact ⟨rfl, h, rfl⟩

/-- Nor is a status. -/
theorem readStatus_of_le (b : Build) (modelName : String) (json : Json.Value)
    (h : ∀ percent ∈ percentOf json, progress.lastProgress ≤ percent) :
    (progress.readStatus b modelName json).1.underflowed = progress.underflowed ∧
      (∀ bound, progress.lastProgress ≤ bound → (∀ percent ∈ percentOf json, percent ≤ bound) →
        (progress.readStatus b modelName json).1.lastProgress ≤ bound) ∧
      (progress.readStatus b modelName json).2 =
        (errorOf json).map fun e => .error s!"Ollama error: {e}" := by
  rw [Progress.readStatus]
  rcases hpercent : percentOf json with _ | percent
  · exact ⟨rfl, fun bound hlast _ => hlast, rfl⟩
  · obtain ⟨hunder, hlast, hnone⟩ := report_of_le b modelName (h percent hpercent)
    rcases hreport : progress.report b modelName percent with ⟨reported, stop⟩
    rw [hreport] at hunder hlast hnone
    obtain rfl : stop = none := hnone
    simp only [hreport]
    exact ⟨hunder, fun bound _ hbound => UInt8.le_trans hlast (hbound percent rfl), trivial⟩

/-- Where percentages never fall, reading lines goes well. -/
theorem readLines_of_le (modelName : String) (progress : Progress) {lines : List (List Char)}
    (h : (b.percents lines).Pairwise (· ≤ ·))
    (hlast : ∀ percent ∈ b.percents lines, progress.lastProgress ≤ percent)
    (hsound : progress.underflowed = false) :
    (LineBuffer.foldUntil (Progress.readLine b modelName) progress lines).1.underflowed = false ∧
      (LineBuffer.foldUntil (Progress.readLine b modelName) progress lines).2 ≠
        some .overflow := by
  induction lines generalizing progress with
  | nil => exact ⟨hsound, nofun⟩
  | cons line lines ih =>
    rw [Build.percents] at h hlast
    rcases hstatus : b.statusOf line with _ | json
    · have hline : progress.readLine b modelName line = (progress, none) := by
        rw [Progress.readLine, hstatus]
      rw [hstatus] at h hlast
      rw [LineBuffer.foldUntil_cons_of_none hline]
      exact ih progress h hlast hsound
    · rw [hstatus] at h hlast
      obtain ⟨hpercent, hrest, hle⟩ := List.pairwise_append.mp h
      obtain ⟨hunder, hbound, hstop⟩ := readStatus_of_le b modelName json fun percent hmem =>
        hlast percent (List.mem_append_left _ (Option.mem_toList.mpr hmem))
      have hline : progress.readLine b modelName line = progress.readStatus b modelName json := by
        rw [Progress.readLine, hstatus]
      rcases herror : errorOf json with _ | e
      · -- no error: the other lines are read
        rw [herror] at hstop
        rw [LineBuffer.foldUntil_cons_of_none (hline.trans (Prod.ext rfl hstop))]
        simp only [herror, Option.isSome_none, Bool.false_eq_true, if_false] at hrest hle hlast
        refine ih _ hrest (fun percent hmem => ?_) (hunder.trans hsound)
        exact hbound percent (hlast percent (List.mem_append_right _ hmem)) fun percent' hmem' =>
          hle percent' (Option.mem_toList.mpr hmem') percent hmem
      · rw [herror] at hstop
        rw [LineBuffer.foldUntil_cons_of_some (hline.trans (Prod.ext rfl hstop))]
        exact ⟨hunder.trans hsound, nofun⟩

/-- What follows the reading neither subtracts nor panics. -/
theorem sound_finish {read : Progress × Option Stop} (hsound : read.1.underflowed = false)
    (hstop : read.2 ≠ some .overflow) : (p.finish a read).Sound := by
  rcases read with ⟨progress, _ | _ | message⟩
  · rw [Pull.finish]
    split
    · exact ⟨hsound, nofun⟩
    · exact ⟨hsound, nofun⟩
  · exact absurd rfl hstop
  · exact ⟨hsound, nofun⟩

/-- **No subtraction goes below zero** in a call the percentages of which never fall. -/
theorem sound_outcome (hcut : p.CleanlyCut) (h : p.NeverFalls b) : (p.outcome b).Sound := by
  rcases p with ⟨modelName, endpoint, e | a⟩
  · exact ⟨rfl, nofun⟩
  · rw [Pull.outcome]
    dsimp only
    split_ifs with hsuccess
    · obtain ⟨hunder, hstop⟩ := readLines_of_le modelName .start (h hsuccess)
        (fun _ _ => UInt8.zero_le) rfl
      rw [finishReading_eq (hcut hsuccess)]
      exact sound_finish hunder hstop
    · exact ⟨rfl, nofun⟩

end Percentages

/-! ## On the way -/

section OnTheWay

variable {b : Build} {p : Pull} {a : Answer} {modelName : String} {progress : Progress}

/-- A subtraction that went below zero is not forgotten. -/
theorem underflowed_report (b : Build) (modelName : String) (percent : UInt8)
    (h : progress.underflowed = true) :
    (progress.report b modelName percent).1.underflowed = true := by
  simp only [Progress.report, h, Bool.true_or]
  split_ifs <;> first | exact h | rfl

theorem underflowed_readLine (line : List Char) (h : progress.underflowed = true) :
    (progress.readLine b modelName line).1.underflowed = true := by
  rw [Progress.readLine]
  split
  · exact h
  · next json _ =>
    rw [Progress.readStatus]
    rcases percentOf json with _ | percent
    · exact h
    · have hreport := underflowed_report b modelName percent h
      dsimp only
      split <;> next heq => rwa [heq] at hreport

theorem underflowed_finish {read : Progress × Option Stop} (h : read.1.underflowed = true) :
    (p.finish a read).progress.underflowed = true := by
  rcases read with ⟨progress, _ | _ | message⟩
  · rw [Pull.finish]
    split <;> exact h
  · exact h
  · exact h

/-- So a call that ends without one had none on the way. -/
theorem not_underflowed_of_finishReading {state : Progress × List Char}
    {chunks : List (List UInt8)}
    (h : (p.finishReading b a state chunks).progress.underflowed = false) :
    state.1.underflowed = false := by
  by_contra hstate
  rw [Bool.not_eq_false] at hstate
  have hread : (LineBuffer.foldUntil (readChunk b p.modelName) state chunks).1.1.underflowed =
      true := by
    refine LineBuffer.foldUntil_invariant
      (P := fun s : Progress × List Char => s.1.underflowed = true)
      (fun s chunk hs => ?_) hstate chunks
    exact LineBuffer.foldUntil_invariant (P := fun s : Progress => s.underflowed = true)
      (fun _ line => underflowed_readLine line) hs _
  have hfinish : (p.finishReading b a state chunks).progress.underflowed = true :=
    underflowed_finish hread
  rw [h] at hfinish
  cases hfinish

end OnTheWay

end Ollama

end MeetilyLocal
