import MeetilyLocal.Utils.DownloadGuard
import Mathlib.Algebra.Group.Nat.Defs

/-!
# What a download leaves behind

`download_file` (`utils/download.rs`) with the file that it writes. A download may begin with the part of
a file that an earlier one has left; the server goes on from there, begins anew or refuses, and the
network and the disk may fail at any byte.

"On success, `dest_path` contains exactly `total_bytes` bytes", and that the length is wrong "(and any
error while streaming chunks) removes the partial file". Only the wrong length does: on every other way
out the file stays, and a length that was not announced is not checked (`endsClean_iff`).
-/

namespace MeetilyLocal

namespace DownloadFile

/-! ## What the network and the disk answer -/

/-- What is in a file. -/
abbrev Bytes : Type := List UInt8

/-- An error of the stream. -/
structure StreamError : Type where
  isTimeout : Bool
  isConnect : Bool
  isBody : Bool
  /-- its text -/
  text : String

/-- The head of a response. -/
structure Response : Type where
  /-- the code -/
  status : ℕ
  /-- and how it is shown -/
  statusText : String
  /-- `Content-Length` -/
  contentLength : Option ℕ

/-- What is next in the stream. -/
inductive Next : Type where
  /-- a chunk, and whether it can be written -/
  | chunk (bytes : Bytes) (written : Except String Unit)
  /-- an error -/
  | fails (error : StreamError)

/-- What the loop meets before it is given what is next. -/
structure Wait : Type where
  /-- the guard, as it is when the loop looks at it -/
  guard : DownloadGuard
  /-- whether nothing comes for as long as a timeout -/
  stalled : Bool

/-- A round of the loop. -/
structure Round extends Wait where
  next : Next

/-- What the network and the disk answer. -/
structure Env : Type where
  /-- whether the size of the file can be read -/
  metadata : Bool
  /-- the response to a request, by its `Range` -/
  answer : Option String → Except String Response
  /-- opening or creating the file -/
  opened : Except String Unit
  /-- the rounds until the stream ends -/
  rounds : List Round
  /-- before it ends -/
  last : Wait
  /-- flushing the file at the end -/
  flushed : Except String Unit
  /-- how much of what was written is in the file when it was not flushed -/
  kept : ℕ
  /-- whether the file can be removed -/
  removed : Bool

/-! ## The download -/

/-- What a call is asked for, less where from and where to. -/
structure DownloadRequest : Type where
  /-- whether to go on with what is there -/
  resume : Bool
  /-- after how many seconds without data to fail -/
  chunkTimeout : Option ℕ

/-- What a call that succeeds says. -/
structure DownloadOutcome : Type where
  totalBytes : ℕ
  downloadedBytes : ℕ
  resumed : Bool

/-- How a call fails. -/
inductive Failure : Type where
  /-- `DownloadCancelled` -/
  | cancelled
  /-- anything else -/
  | other (message : String)
  deriving DecidableEq

/-- What is said of an error of the stream. -/
def StreamError.message (e : StreamError) : String :=
  let category :=
    if e.isTimeout then "Connection timeout - Check your internet"
    else if e.isConnect then "Connection failed - Check your internet"
    else if e.isBody then "Stream interrupted - Network unstable"
    else "Download error"
  category ++ ": " ++ e.text

section Download

variable (req : DownloadRequest) (name : String) (file : Option Bytes) (env : Env)

/-- How much of the file is there already. -/
def existingSize : ℕ := if req.resume && env.metadata then (file.getD []).length else 0

/-- The header for what is missing. -/
def range : Option String :=
  if 0 < existingSize req file env then
    some ("bytes=" ++ toString (existingSize req file env) ++ "-")
  else none

/-- `StatusCode::is_success` -/
def isSuccess (response : Response) : Bool := 200 ≤ response.status && response.status < 300

/-- Whether the server goes on from what is there. -/
def isPartial (response : Response) : Bool := response.status == 206

/-- The size that is expected; a sum of `u64` wraps around. -/
def totalSize (response : Response) : ℕ :=
  if isPartial response then
    (existingSize req file env + response.contentLength.getD 0) % 2 ^ 64
  else response.contentLength.getD 0

/-- What is in the file when it is opened: to append, it has to be there. -/
def openFile (resuming : Bool) : Except String Bytes :=
  if resuming then
    match file, env.opened with
    | some bytes, .ok () => .ok bytes
    | _, .error e => .error ("Failed to open file for append: " ++ e)
    | none, .ok () => .error "Failed to open file for append: No such file or directory (os error 2)"
  else
    match env.opened with
    | .ok () => .ok []
    | .error e => .error ("Failed to create file: " ++ e)

/-- Why the loop does not wait for what is next. -/
def interrupted (wait : Wait) : Option Failure :=
  if wait.guard.isCancelRequested name then some .cancelled
  else if wait.stalled then
    req.chunkTimeout.map fun t =>
      .other ("Download timeout - No data received for " ++ toString t ++ " seconds")
  else none

/-- The loop, with what it has written. -/
def downloadLoop (last : Wait) : Bytes → List Round → Option Failure × Bytes
  | streamed, [] => (interrupted req name last, streamed)
  | streamed, round :: rounds =>
    match interrupted req name round.toWait with
    | some failure => (some failure, streamed)
    | none =>
      match round.next with
      | .fails e => (some (.other e.message), streamed)
      | .chunk bytes (.error e) =>
        (some (.other ("Failed to write chunk to file: " ++ e)), streamed ++ bytes)
      | .chunk bytes (.ok ()) => downloadLoop last (streamed ++ bytes) rounds

/-- The rest of `download_file`, from where the file is open; a flush on the way out may fail. -/
def stream (total : ℕ) (resuming : Bool) (base : Bytes) :
    Except Failure DownloadOutcome × Option Bytes :=
  match downloadLoop req name env.last [] env.rounds with
  | (some failure, streamed) => (.error failure, some (base ++ streamed.take env.kept))
  | (none, streamed) =>
    match env.flushed with
    | .error e =>
      (.error (.other ("Failed to flush file: " ++ e)), some (base ++ streamed.take env.kept))
    | .ok () =>
      let downloaded := (if resuming then existingSize req file env else 0) + streamed.length
      if 0 < total ∧ downloaded ≠ total then
        (.error (.other ("Download incomplete for " ++ name ++ ": got " ++ toString downloaded ++
            " of " ++ toString total ++ " bytes")),
          if env.removed then none else some (base ++ streamed))
      else (.ok ⟨total, downloaded, resuming⟩, some (base ++ streamed))

/-- `download_file`, with what there is of a file before and after. -/
def downloadFile : Except Failure DownloadOutcome × Option Bytes :=
  match env.answer (range req file env) with
  | .error e => (.error (.other ("Failed to start download: " ++ e)), file)
  | .ok response =>
    if isPartial response || isSuccess response then
      match openFile file env (isPartial response) with
      | .error message => (.error (.other message), file)
      | .ok base => stream req name file env (totalSize req file env response) (isPartial response) base
    else (.error (.other ("Download failed with status: " ++ response.statusText)), file)

/-! ## Ending clean -/

/-- How long the file is to be, if the server has said it: what it sends, after what it goes on from. -/
def completeLength : Option ℕ :=
  match env.answer (range req file env) with
  | .error _ => none
  | .ok response =>
    response.contentLength.map fun length =>
      (if isPartial response then existingSize req file env else 0) + length

/-- A download **ends clean**: if it succeeds the file has the complete length, and if it fails, and is
not cancelled, there is no file. -/
def EndsClean (complete : Option ℕ) : Except Failure DownloadOutcome × Option Bytes → Prop
  | (.ok _, file) => ∃ bytes, file = some bytes ∧ complete = some bytes.length
  | (.error failure, file) => failure ≠ .cancelled → file = none

/-- The bytes of a round. -/
def Round.bytes (round : Round) : Bytes :=
  match round.next with
  | .chunk bytes _ => bytes
  | .fails _ => []

/-- What the stream brings. -/
def delivered : Bytes := env.rounds.flatMap Round.bytes

/-- A round in which a chunk is written. -/
def Round.isQuiet (round : Round) : Bool :=
  interrupted req name round.toWait == none &&
    match round.next with
    | .chunk _ (.ok ()) => true
    | _ => false

/-- Where the loop ends: at the first round that is not quiet, or with the stream. -/
def lastWait : Wait := ((env.rounds.find? (!Round.isQuiet req name ·)).map Round.toWait).getD env.last

/-- A request to cancel is the first that comes in between. -/
def Cancelled : Prop := (lastWait req name env).guard.isCancelRequested name = true

/-- Nothing comes in between. -/
def Uninterrupted : Prop :=
  (∀ round ∈ env.rounds, Round.isQuiet req name round = true) ∧
    interrupted req name env.last = none ∧ env.flushed = .ok ()

/-- **What is checked suffices**: if there is no size to compare with, or it is right, then the length was
announced, and together with what was there it is this; if it is wrong the file can be removed. -/
def Suffices (response : Response) (base : Bytes) : Prop :=
  if totalSize req file env response = 0 ∨
      (if isPartial response then existingSize req file env else 0) + (delivered env).length =
        totalSize req file env response then
    completeLength req file env = some (base.length + (delivered env).length)
  else env.removed = true

/-- When a download ends clean. Before the file is open, there must not be one; from then on nothing but
a request to cancel may come in between, and what is checked at the end has to suffice. -/
def EndsWell : Prop :=
  match env.answer (range req file env) with
  | .error _ => file = none
  | .ok response =>
    if isSuccess response then
      match openFile file env (isPartial response) with
      | .error _ => file = none
      | .ok base =>
        Cancelled req name env ∨
          Uninterrupted req name env ∧ Suffices req file env response base
    else file = none

variable {req name file env}

variable (req) in
theorem interrupted_eq_cancelled_iff {wait : Wait} :
    interrupted req name wait = some .cancelled ↔ wait.guard.isCancelRequested name = true := by
  rw [interrupted]
  split_ifs with hcancel hstalled
  · simp [hcancel]
  · simp [hcancel]
  · simp [hcancel]

theorem isSuccess_of_isPartial {response : Response} (h : isPartial response = true) :
    isSuccess response = true := by
  simp only [isPartial, beq_iff_eq] at h
  simp [isSuccess, h]

theorem Round.isQuiet_iff {round : Round} :
    Round.isQuiet req name round = true ↔
      interrupted req name round.toWait = none ∧ round.next = .chunk round.bytes (.ok ()) := by
  obtain ⟨wait, next⟩ := round
  rcases next with ⟨bytes, _ | ⟨⟨⟩⟩⟩ | e <;> simp [Round.isQuiet, Round.bytes]

/-- The loop ends by itself if nothing comes in between, and has written all then. -/
theorem downloadLoop_of_quiet {last : Wait} {rounds : List Round} (streamed : Bytes)
    (h : ∀ round ∈ rounds, Round.isQuiet req name round = true) :
    downloadLoop req name last streamed rounds =
      (interrupted req name last, streamed ++ rounds.flatMap Round.bytes) := by
  induction rounds generalizing streamed with
  | nil => simp [downloadLoop]
  | cons round rounds ih =>
    obtain ⟨hround, hrounds⟩ := List.forall_mem_cons.mp h
    obtain ⟨hwait, hnext⟩ := Round.isQuiet_iff.mp hround
    rw [downloadLoop, hwait, hnext]
    simp only
    rw [ih _ hrounds, List.flatMap_cons, List.append_assoc]

/-- The loop fails at the first round that is not quiet, and was cancelled if it was there. -/
theorem downloadLoop_of_not_quiet (last : Wait) {rounds : List Round} (streamed : Bytes) {round : Round}
    (h : rounds.find? (!Round.isQuiet req name ·) = some round) :
    ∃ failure written, downloadLoop req name last streamed rounds = (some failure, written) ∧
      (failure = .cancelled ↔ round.guard.isCancelRequested name = true) := by
  induction rounds generalizing streamed with
  | nil => simp at h
  | cons first rounds ih =>
    rcases hquiet : Round.isQuiet req name first with _ | _
    · obtain rfl : first = round := by simpa [hquiet] using h
      rw [downloadLoop]
      rcases hwait : interrupted req name first.toWait with _ | failure
      · have hcancel : ¬first.guard.isCancelRequested name = true := by
          rw [← interrupted_eq_cancelled_iff req, hwait]
          simp
        rcases hnext : first.next with ⟨bytes, e | ⟨⟨⟩⟩⟩ | e
        · exact ⟨_, _, rfl, by simp [hcancel]⟩
        · have := Round.isQuiet_iff.mpr.mt (by simp [hquiet] : ¬Round.isQuiet req name first = true)
          simp [hwait, hnext, Round.bytes] at this
        · exact ⟨_, _, rfl, by simp [hcancel]⟩
      · refine ⟨failure, streamed, rfl, ?_⟩
        rw [← interrupted_eq_cancelled_iff req, hwait, Option.some.injEq]
    · obtain ⟨hwait, hnext⟩ := Round.isQuiet_iff.mp hquiet
      rw [downloadLoop, hwait, hnext]
      exact ih _ (by simpa [hquiet] using h)

/-- At the end what came is compared with what was expected. -/
theorem stream_of_uninterrupted (h : Uninterrupted req name env) (total : ℕ) (resuming : Bool)
    (base : Bytes) :
    stream req name file env total resuming base =
      let downloaded := (if resuming then existingSize req file env else 0) + (delivered env).length
      if 0 < total ∧ downloaded ≠ total then
        (.error (.other ("Download incomplete for " ++ name ++ ": got " ++ toString downloaded ++
            " of " ++ toString total ++ " bytes")),
          if env.removed then none else some (base ++ delivered env))
      else (.ok ⟨total, downloaded, resuming⟩, some (base ++ delivered env)) := by
  obtain ⟨hquiet, hlast, hflushed⟩ := h
  rw [stream, downloadLoop_of_quiet [] hquiet, hlast, hflushed]
  rfl

theorem endsClean_of_uninterrupted (h : Uninterrupted req name env) {response : Response}
    {base : Bytes} :
    EndsClean (completeLength req file env)
        (stream req name file env (totalSize req file env response) (isPartial response) base) ↔
      Suffices req file env response base := by
  rw [stream_of_uninterrupted h, Suffices]
  simp only
  generalize (if isPartial response then existingSize req file env else 0) + (delivered env).length =
    downloaded
  generalize totalSize req file env response = total
  by_cases hsame : total = 0 ∨ downloaded = total
  · have hright : ¬(0 < total ∧ downloaded ≠ total) := by omega
    rw [if_neg hright, if_pos hsame]
    simp [EndsClean]
  · -- the check finds that the length is wrong
    have hwrong : 0 < total ∧ downloaded ≠ total := by omega
    rw [if_pos hwrong, if_neg hsame]
    simp [EndsClean]

/-- What the download of an open file comes to. -/
theorem endsClean_stream {response : Response} {base : Bytes} :
    EndsClean (completeLength req file env)
        (stream req name file env (totalSize req file env response) (isPartial response) base) ↔
      Cancelled req name env ∨
        Uninterrupted req name env ∧ Suffices req file env response base := by
  rcases hfind : env.rounds.find? (!Round.isQuiet req name ·) with _ | round
  · have hquiet : ∀ round ∈ env.rounds, Round.isQuiet req name round = true := by
      simpa using hfind
    have hcancelled : Cancelled req name env ↔ env.last.guard.isCancelRequested name = true := by
      simp [Cancelled, lastWait, hfind]
    rcases hlast : interrupted req name env.last with _ | failure
    · have hnot : ¬Cancelled req name env := by
        rw [hcancelled, ← interrupted_eq_cancelled_iff req, hlast]
        simp
      rcases hflushed : env.flushed with e | ⟨⟨⟩⟩
      · have huninterrupted : ¬Uninterrupted req name env := by simp [Uninterrupted, hflushed]
        rw [stream, downloadLoop_of_quiet [] hquiet, hlast, hflushed]
        simp [EndsClean, hnot, huninterrupted]
      · have huninterrupted : Uninterrupted req name env := ⟨hquiet, hlast, hflushed⟩
        rw [endsClean_of_uninterrupted huninterrupted, or_iff_right hnot,
          and_iff_right huninterrupted]
    · have huninterrupted : ¬Uninterrupted req name env := by simp [Uninterrupted, hlast]
      rw [stream, downloadLoop_of_quiet [] hquiet, hlast, hcancelled,
        ← interrupted_eq_cancelled_iff req, hlast]
      simp [EndsClean, huninterrupted]
  · have huninterrupted : ¬Uninterrupted req name env := by
      rintro ⟨hquiet, -⟩
      have hround := List.find?_some hfind
      simp [hquiet round (List.mem_of_find?_eq_some hfind)] at hround
    obtain ⟨failure, written, hloop, hfailure⟩ :=
      downloadLoop_of_not_quiet env.last [] hfind
    rw [stream, hloop, Cancelled, lastWait, hfind]
    simp [EndsClean, huninterrupted, hfailure]

/-- **A download ends clean** exactly if nothing but a request to cancel comes in between once the file is
open, and what is checked at the end suffices; before, only if there was no file. -/
theorem endsClean_iff (req : DownloadRequest) (name : String) (file : Option Bytes) (env : Env) :
    EndsClean (completeLength req file env) (downloadFile req name file env) ↔
      EndsWell req name file env := by
  rw [downloadFile, EndsWell]
  rcases hanswer : env.answer (range req file env) with e | response
  · simp [EndsClean]
  · simp only
    have hsuccess : (isPartial response || isSuccess response) = isSuccess response := by
      rcases hpartial : isPartial response with _ | _
      · simp
      · simp [isSuccess_of_isPartial hpartial]
    rw [hsuccess]
    split_ifs with hok
    · rcases openFile file env (isPartial response) with message | base
      · simp [EndsClean]
      · exact endsClean_stream
    · simp [EndsClean]

end Download

/-! ## A stream that breaks -/

/-- A download of 4 bytes that breaks after 2. -/
def broken : Env where
  metadata := true
  answer _ := .ok ⟨200, "200 OK", some 4⟩
  opened := .ok ()
  rounds := [⟨⟨.new, false⟩, .chunk [1, 2] (.ok ())⟩,
    ⟨⟨.new, false⟩, .fails ⟨false, false, true, "error decoding response body"⟩⟩]
  last := ⟨.new, false⟩
  flushed := .ok ()
  kept := 2
  removed := true

/-- What has come by then stays. -/
theorem not_endsClean_broken :
    ¬EndsClean (completeLength ⟨true, none⟩ none broken) (downloadFile ⟨true, none⟩ "base" none broken) := by
  intro h
  have hfile : (downloadFile ⟨true, none⟩ "base" none broken).2 = some [1, 2] := by decide
  have herror : (downloadFile ⟨true, none⟩ "base" none broken).1 =
      .error (.other "Stream interrupted - Network unstable: error decoding response body") := by
    rfl
  rw [← Prod.mk.eta (p := downloadFile ⟨true, none⟩ "base" none broken), hfile, herror] at h
  simp [EndsClean] at h

end DownloadFile

end MeetilyLocal
