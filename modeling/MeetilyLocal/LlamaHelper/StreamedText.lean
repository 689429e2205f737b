import Mathlib.Data.Nat.Find
import MeetilyLocal.Library.Utf8Decoder
import MeetilyLocal.LlamaHelper.Generate

/-!
# The chunks and the final text

`llama-protocol` says of the chunks of a generation that "concatenating their `text` yields a
prefix of the final text". How much is streamed depends on the texts of the tokens alone (`due`): a
batch is due each time the output without its held-back tail is 64 bytes longer than what was sent.
A stop token that is found never begins before what was sent (`Ended.cut`), but the white space
before it is trimmed too, and that may have been sent (`streamsPrefix_iff`).
-/

namespace MeetilyLocal

namespace LlamaHelper

open Utf8

/-- The text of an answer. -/
def Response.text : Response → List Char
  | .chunk text => text
  | .response text _ => text
  | _ => []

/-- Llama.cpp failed. -/
def Outcome.failed (outcome : Outcome) : Bool :=
  match outcome.result with
  | .ok _ => false
  | .error _ => true

/-- The chunks are a prefix of the final text, and of what stands before the stop token at which
the output was cut. -/
structure StreamsPrefix (outcome : Outcome) : Prop where
  /-- a prefix of the final text -/
  final : outcome.progress.chunks.flatten <+: outcome.terminal.text
  /-- a prefix of what stands before the stop token -/
  beforeCut : ∀ k, outcome.cut = some k →
    outcome.progress.chunks.flatten <+: upTo outcome.progress.texts.flatten k

/-! ## How much is due -/

/-- Where the batch ends that is due when the output is `text` and `sent` bytes have been sent. -/
def batchEnd (maxStop : ℕ) (text : List Char) (sent : ℕ) : ℕ :=
  let safe := len (upTo text (len text - maxStop))
  if sent + streamBatchBytes ≤ safe then safe else sent

/-- The output and the end of the last batch that was due, after the texts of some tokens. -/
def batches (maxStop : ℕ) (texts : List (List Char)) : List Char × ℕ :=
  texts.foldl (fun reached text =>
    (reached.1 ++ text, batchEnd maxStop (reached.1 ++ text) reached.2)) ([], 0)

/-- The end of the last batch that was due after the texts of some tokens. -/
def due (maxStop : ℕ) (texts : List (List Char)) : ℕ := (batches maxStop texts).2

/-- No batch was due before a failure, and the white space before the stop token at which the
output is cut does not reach back into a batch that was due before. -/
structure Streamable (stopTokens : List (List Char)) (texts : List (List Char)) (failed : Bool) :
    Prop where
  /-- nothing is sent before a failure -/
  failed : failed = true → due (maxStopLen stopTokens) texts = 0
  /-- what is trimmed was not sent -/
  trimmed : ∀ k, firstListed stopTokens texts.flatten = some k →
    due (maxStopLen stopTokens) texts.dropLast ≤ len (trimEnd (upTo texts.flatten k))

theorem fst_batches (maxStop : ℕ) (texts : List (List Char)) :
    (batches maxStop texts).1 = texts.flatten := by
  induction texts using List.reverseRecOn with
  | nil => rfl
  | append_singleton texts text ih => simp [batches] at ih ⊢; rw [ih]

theorem due_concat (maxStop : ℕ) (texts : List (List Char)) (text : List Char) :
    due maxStop (texts ++ [text]) =
      batchEnd maxStop (texts.flatten ++ text) (due maxStop texts) := by
  rw [← fst_batches maxStop]
  simp [due, batches]

/-! ## The loop -/

/-- What holds between two tokens. -/
structure Streaming (stopTokens : List (List Char)) (p : Progress) : Prop where
  /-- the output is made of the texts -/
  output : p.output = p.texts.flatten
  /-- no stop token occurs in it -/
  fresh : firstListed stopTokens p.output = none
  /-- the tail is held back -/
  held : p.streamedLen ≤ len p.output - maxStopLen stopTokens
  /-- the chunks are what was streamed -/
  chunks : p.chunks.flatten = upTo p.output p.streamedLen
  /-- in bytes -/
  len_chunks : len p.chunks.flatten = p.streamedLen
  /-- the last batch that was due has been streamed -/
  sent : p.streamedLen = due (maxStopLen stopTokens) p.texts

/-- How a generation ends. -/
inductive Ended (stopTokens : List (List Char)) : Outcome → Prop where
  /-- a stop token is found in what a piece completes; it does not begin in what was streamed -/
  | cut {p : Progress} {decoder : TextDecoder} {piece : List UInt8} {k : ℕ} :
    Streaming stopTokens p →
    firstListed stopTokens (p.push decoder piece).output = some k → p.streamedLen ≤ k →
    Ended stopTokens
      ⟨p.push decoder piece, some k, .ok (trimEnd (upTo (p.push decoder piece).output k))⟩
  /-- the model ends it, or the limit is reached -/
  | done {p : Progress} : Streaming stopTokens p → Ended stopTokens ⟨p, none, .ok p.output⟩
  /-- llama.cpp fails -/
  | failed {p : Progress} {message : String} : Streaming stopTokens p →
    Ended stopTokens ⟨p, none, .error message⟩

variable {stopTokens : List (List Char)} {decoder : TextDecoder} {p : Progress}

/-- No stop token occurs in an empty text. -/
theorem firstListed_nil (hne : ∀ stopToken ∈ stopTokens, stopToken ≠ []) :
    firstListed stopTokens [] = none :=
  firstListed_eq_none_iff.mpr fun stopToken hmem => by rw [find, if_neg (hne stopToken hmem)]

theorem streaming_start (hne : ∀ stopToken ∈ stopTokens, stopToken ≠ []) :
    Streaming stopTokens .start where
  output := rfl
  fresh := firstListed_nil hne
  held := Nat.zero_le _
  chunks := rfl
  len_chunks := rfl
  sent := rfl

theorem Streaming.output_push (h : Streaming stopTokens p) (decoder : TextDecoder)
    (piece : List UInt8) :
    (p.push decoder piece).output = (p.push decoder piece).texts.flatten := by
  simp [Progress.push, h.output]

/-- What was streamed is a prefix of the longer output. -/
theorem Streaming.upTo_push (h : Streaming stopTokens p) (decoder : TextDecoder)
    (piece : List UInt8) :
    upTo (p.push decoder piece).output p.streamedLen = p.chunks.flatten :=
  (upTo_append (h.held.trans (Nat.sub_le _ _)) _).trans h.chunks.symm

/-- A text is appended without a stop token, and streamed if a batch is due. -/
theorem Streaming.stream (h : Streaming stopTokens p) {piece : List UInt8}
    (hfresh : firstListed stopTokens (p.push decoder piece).output = none) :
    Streaming stopTokens ((p.push decoder piece).stream stopTokens) := by
  have hpushed := h.upTo_push decoder piece
  have houtput := h.output_push decoder piece
  have hdue : due (maxStopLen stopTokens) (p.push decoder piece).texts =
      batchEnd (maxStopLen stopTokens) (p.push decoder piece).output p.streamedLen := by
    rw [h.sent, Progress.push, due_concat, h.output]
  have hgrown : len p.output ≤ len (p.push decoder piece).output := by simp [Progress.push]
  have hsafe := floorBoundary_eq
    (Nat.sub_le (len (p.push decoder piece).output) (maxStopLen stopTokens))
  have hsafe_le := len_upTo_le (p.push decoder piece).output
    (len (p.push decoder piece).output - maxStopLen stopTokens)
  have hheld := h.held
  rw [Progress.stream, hsafe]
  split
  · next hbatch =>
    obtain ⟨hlt, hlong⟩ := hbatch
    have hsent : p.streamedLen <
        len (upTo (p.push decoder piece).output
          (len (p.push decoder piece).output - maxStopLen stopTokens)) := hlt
    -- the chunk goes on where the last one ended
    have hchunks : (p.chunks ++ [dropUpTo (upTo (p.push decoder piece).output
        (len (upTo (p.push decoder piece).output
          (len (p.push decoder piece).output - maxStopLen stopTokens)))) p.streamedLen]).flatten =
        upTo (p.push decoder piece).output (len (upTo (p.push decoder piece).output
          (len (p.push decoder piece).output - maxStopLen stopTokens))) := by
      rw [List.flatten_concat, ← hpushed, upTo_len_upTo]
      conv_rhs => rw [← upTo_append_dropUpTo (upTo _ _) p.streamedLen]
      rw [upTo_upTo (hsent.le.trans hsafe_le)]
    refine ⟨houtput, hfresh, hsafe_le, hchunks, ?_, ?_⟩
    · exact (congrArg len hchunks).trans (congrArg len (upTo_len_upTo _ _))
    · refine Eq.trans ?_ hdue.symm
      rw [batchEnd, if_pos]
      have hlong' : streamBatchBytes ≤ _ - p.streamedLen := hlong
      omega
  · next hnot =>
    refine ⟨houtput, hfresh, by simp [Progress.push] at hgrown ⊢; omega, hpushed.symm, ?_, ?_⟩
    · exact h.len_chunks
    · refine Eq.trans ?_ hdue.symm
      rw [batchEnd, if_neg]
      · rfl
      · intro hlong
        have hbatch : 0 < streamBatchBytes := by decide
        exact hnot ⟨by show p.streamedLen < _; omega, by show _ ≤ _ - p.streamedLen; omega⟩

/-- The scan of a pushed piece looks at the whole output. -/
theorem Streaming.stopScan_push (h : Streaming stopTokens p)
    (hne : ∀ stopToken ∈ stopTokens, stopToken ≠ []) (piece : List UInt8) :
    stopScan stopTokens (p.push decoder piece).output
        (decoder.decodeToString p.read piece tokenTextCapacity) =
      firstListed stopTokens (p.push decoder piece).output :=
  stopScan_eq hne h.fresh

/-- A stop token that a piece completes does not begin in what was streamed. -/
theorem Streaming.le_of_firstListed (h : Streaming stopTokens p) {piece : List UInt8} {k : ℕ}
    (hcut : firstListed stopTokens (p.push decoder piece).output = some k) : p.streamedLen ≤ k := by
  obtain ⟨before, stopToken, after, hlist, hfind, -⟩ := List.findSome?_eq_some_iff.mp hcut
  have hmem : stopToken ∈ stopTokens := by simp [hlist]
  have hlen := len_le_maxStopLen hmem
  have hheld := h.held
  obtain ⟨start, hstart, rfl⟩ := exists_of_find hfind
  by_contra hlt
  -- it would have been there before
  have hin : start ++ stopToken <+: p.output := by
    refine prefix_of_len_le hstart (List.prefix_append _ _) ?_
    rw [len_append]
    omega
  obtain ⟨j, hj, -⟩ := exists_find_le hin
  rw [firstListed_eq_none_iff.mp h.fresh stopToken hmem] at hj
  cases hj

theorem ended_loop (hne : ∀ stopToken ∈ stopTokens, stopToken ≠ []) (maxTokens : ℤ)
    (h : Streaming stopTokens p) (tokens : List Token) :
    Ended stopTokens (Progress.loop decoder stopTokens maxTokens p tokens) := by
  induction tokens generalizing p with
  | nil => exact .done h
  | cons token tokens ih =>
    rw [Progress.loop]
    split
    · exact .done h
    · rcases token.piece with message | piece
      · exact .failed h
      · simp only [h.stopScan_push hne piece]
        rcases hscan : firstListed stopTokens (p.push decoder piece).output with _ | k
        · have hstreamed := h.stream hscan
          rcases token.evaluated with message | ⟨⟨⟩⟩
          · exact .failed hstreamed
          · exact ih ⟨hstreamed.output, hstreamed.fresh, hstreamed.held, hstreamed.chunks,
              hstreamed.len_chunks, hstreamed.sent⟩
        · exact .cut h hscan (h.le_of_firstListed hscan)

theorem ended_generate (decoder : TextDecoder)
    (hne : ∀ stopToken ∈ stopTokens, stopToken ≠ []) (maxTokens : ℤ)
    (prepared : Except String Unit) (tokens : List Token) :
    Ended stopTokens (generate decoder stopTokens maxTokens prepared tokens) := by
  rcases prepared with message | ⟨⟨⟩⟩
  · exact .failed (streaming_start hne)
  · exact ended_loop hne maxTokens (streaming_start hne) tokens

/-! ## The chunks are a prefix -/

/-- A prefix of the output that is cut is one of the trimmed text if it is not longer. -/
theorem prefix_trimEnd_iff {text chunks : List Char} {k : ℕ} (h : chunks <+: upTo text k) :
    chunks <+: trimEnd (upTo text k) ↔ len chunks ≤ len (trimEnd (upTo text k)) :=
  ⟨len_le_of_isPrefix, prefix_of_len_le h (trimEnd_isPrefix _)⟩

/-- **Streaming.** Whatever the decoder and the tokens, the chunks are a prefix of the final text
and of what stands before the stop token at which the output is cut, exactly if no batch was due
before a failure and what is trimmed at the cut was not in a batch that was due. -/
theorem streamsPrefix_generate_iff (decoder : TextDecoder)
    (hne : ∀ stopToken ∈ stopTokens, stopToken ≠ []) (maxTokens : ℤ)
    (prepared : Except String Unit) (tokens : List Token) :
    StreamsPrefix (generate decoder stopTokens maxTokens prepared tokens) ↔
      Streamable stopTokens
        (generate decoder stopTokens maxTokens prepared tokens).progress.texts
        (generate decoder stopTokens maxTokens prepared tokens).failed := by
  generalize houtcome : generate decoder stopTokens maxTokens prepared tokens = outcome
  have hended : Ended stopTokens outcome :=
    houtcome ▸ ended_generate decoder hne maxTokens prepared tokens
  cases hended with
  | @cut p decoder' piece k h hcut hle =>
    have houtput := h.output_push decoder' piece
    have hbefore : p.chunks.flatten <+: upTo (p.push decoder' piece).output k := by
      rw [← h.upTo_push decoder' piece]
      exact upTo_mono _ hle
    have htexts : (p.push decoder' piece).texts.dropLast = p.texts := by simp [Progress.push]
    constructor
    · intro hprefix
      refine ⟨nofun, fun j hj => ?_⟩
      obtain rfl : k = j := Option.some.inj (hcut.symm.trans (houtput ▸ hj))
      show due _ (p.push decoder' piece).texts.dropLast ≤ _
      rw [htexts, ← h.sent, ← h.len_chunks, ← houtput]
      exact (prefix_trimEnd_iff hbefore).mp hprefix.final
    · intro hkeeps
      refine ⟨(prefix_trimEnd_iff hbefore).mpr ?_, fun j hj => ?_⟩
      · have htrimmed := hkeeps.trimmed k (houtput ▸ hcut)
        simp only [htexts] at htrimmed
        rwa [← h.sent, ← h.len_chunks, ← houtput] at htrimmed
      · obtain rfl := Option.some.inj hj
        show p.chunks.flatten <+: upTo (p.push decoder' piece).texts.flatten k
        rwa [← houtput]
  | @done p h =>
    have hfresh : firstListed stopTokens p.texts.flatten = none := h.output ▸ h.fresh
    refine ⟨fun _ => ⟨nofun, fun k hk => ?_⟩, fun _ => ⟨?_, nofun⟩⟩
    · rw [hfresh] at hk
      cases hk
    · show p.chunks.flatten <+: p.output
      rw [h.chunks]
      exact upTo_isPrefix _ _
  | @failed p message h =>
    have hfresh : firstListed stopTokens p.texts.flatten = none := h.output ▸ h.fresh
    refine ⟨fun hprefix => ⟨fun _ => ?_, fun k hk => ?_⟩, fun hkeeps => ⟨?_, nofun⟩⟩
    · have hnil : p.chunks.flatten = [] := List.prefix_nil.mp hprefix.final
      rw [← h.sent, ← h.len_chunks, hnil]
      rfl
    · rw [hfresh] at hk
      cases hk
    · have hnone : len p.chunks.flatten = 0 := by rw [h.len_chunks, h.sent]; exact hkeeps.failed rfl
      show p.chunks.flatten <+: []
      rw [len_eq_zero.mp hnone]

/-! ### A text that ends in white space -/

/-- The decoder of the Encoding Standard, which reads as much as it has room for. -/
def utf8Decoder : TextDecoder where
  written := decodeLossy
  reads read piece spare := Nat.findGreatest (fun n =>
    len ((decodeLossy (read ++ piece.take n)).drop (decodeLossy read).length) ≤ spare) piece.length

/-- A token that is evaluated. -/
def Token.ofText (text : String) : Token := ⟨.ok (encode text.toList), .ok ()⟩

/-- A sentence, and the end of the turn. -/
def sentence : List Token :=
  [.ofText "The meeting was about the budget", .ofText " of the next year and who takes",
    .ofText " care of it.\n\n", .ofText "<end_of_turn>"]

/-- The first words of it, white space, and the end of the turn. -/
def padded : List Token :=
  [.ofText "The meeting was about the budget", .ofText "                               ",
    .ofText "              ", .ofText "<end_of_turn>"]

/-- White space that was held back is trimmed. -/
theorem streamsPrefix_sentence :
    (generate utf8Decoder ["<end_of_turn>".toList] 512 (.ok ()) sentence).progress.chunks ≠ [] ∧
      StreamsPrefix (generate utf8Decoder ["<end_of_turn>".toList] 512 (.ok ()) sentence) := by
  refine ⟨by decide +kernel, (streamsPrefix_generate_iff utf8Decoder (by decide +kernel) 512
    (.ok ()) sentence).mpr ⟨by decide +kernel, fun k hk => ?_⟩⟩
  obtain rfl : 77 = k := Option.some.inj (Eq.trans (by decide +kernel) hk)
  decide +kernel

/-- White space that was streamed is trimmed, too. -/
theorem not_streamsPrefix_padded :
    ¬StreamsPrefix (generate utf8Decoder ["<end_of_turn>".toList] 512 (.ok ()) padded) := by
  intro h
  exact absurd h.final (by decide +kernel)

end LlamaHelper

end MeetilyLocal
