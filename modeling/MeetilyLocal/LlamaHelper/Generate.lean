import MeetilyLocal.Library.TextPositions

/-!
# Generating a text in the sidecar

The embedding of `ModelState::generate` in `llama-helper/src/main.rs` and of the arm of `main` that
answers a `generate` request, with the answers of `llama-protocol`. What llama.cpp gives for each
token, and where it fails, comes from outside; so does the decoder of `encoding_rs`. The loop that
decodes the pieces, looks for stop tokens and streams the text is translated step by step.

Times, sampling parameters, GPU layers and threads are left out, as is a pipe that is closed.
-/

namespace MeetilyLocal

namespace LlamaHelper

open Utf8

/-- Helper → app. -/
inductive Response : Type where
  /-- incremental generation output -/
  | chunk : List Char → Response
  /-- the terminal line of a `generate` exchange: the complete final output, or an error -/
  | response : List Char → Option String → Response
  /-- the answer to a ping -/
  | pong : Response
  /-- the answer to a shutdown -/
  | goodbye : Response
  /-- the answer to a line that is no request -/
  | error : String → Response
  deriving DecidableEq

/-- An incremental decoder: what it has written once it has read some bytes, and how much of the
next bytes it reads into a string with some spare capacity. -/
structure TextDecoder : Type where
  /-- the text that it has written after these bytes -/
  written : List UInt8 → List Char
  /-- how many bytes of a piece it reads after these bytes -/
  reads : List UInt8 → List UInt8 → ℕ → ℕ

namespace TextDecoder

/-- The bytes of a piece that the decoder reads. -/
def readOf (decoder : TextDecoder) (read piece : List UInt8) (spare : ℕ) : List UInt8 :=
  piece.take (decoder.reads read piece spare)

/-- `decode_to_string`: what it appends to the string. The bytes that it does not read are lost. -/
def decodeToString (decoder : TextDecoder) (read piece : List UInt8) (spare : ℕ) : List Char :=
  (decoder.written (read ++ decoder.readOf read piece spare)).drop (decoder.written read).length

end TextDecoder

/-- A token that was sampled and does not end the generation. -/
structure Token : Type where
  /-- `token_to_piece_bytes`, with the retry for a larger buffer -/
  piece : Except String (List UInt8)
  /-- adding it to the batch and evaluating it -/
  evaluated : Except String Unit

/-- The variables of the loop, and what has been sampled so far. -/
structure Progress : Type where
  /-- `n_cur - n_prompt_tokens` -/
  generated : ℕ
  /-- the bytes that the decoder has read -/
  read : List UInt8
  /-- `output` -/
  output : List Char
  /-- `streamed_len` -/
  streamedLen : ℕ
  /-- the chunks that were sent -/
  chunks : List (List Char)
  /-- the pieces of the tokens -/
  pieces : List (List UInt8)
  /-- their texts -/
  texts : List (List Char)

/-- What a generation comes to. -/
structure Outcome : Type where
  /-- the loop when it ended -/
  progress : Progress
  /-- where the output was cut -/
  cut : Option ℕ
  /-- what `generate` returns -/
  result : Except String (List Char)

/-- `STREAM_BATCH_BYTES` -/
def streamBatchBytes : ℕ := 64

/-- The spare capacity of `token_text`. -/
def tokenTextCapacity : ℕ := 32

/-- `max_stop_len` -/
def maxStopLen (stopTokens : List (List Char)) : ℕ := ((stopTokens.map len).max?).getD 0

/-- The scan of the output's tail: where the first stop token in the list that occurs there does. -/
def stopScan (stopTokens : List (List Char)) (output tokenText : List Char) : Option ℕ :=
  if 0 < maxStopLen stopTokens then
    let scanFrom := floorBoundary output (len output - (len tokenText + maxStopLen stopTokens))
    stopTokens.findSome? fun stopToken =>
      (find stopToken (dropUpTo output scanFrom)).map (scanFrom + ·)
  else none

namespace Progress

/-- Before the first token. -/
def start : Progress := ⟨0, [], [], 0, [], [], []⟩

/-- The text of a piece is decoded and appended to the output. -/
def push (p : Progress) (decoder : TextDecoder) (piece : List UInt8) : Progress :=
  let tokenText := decoder.decodeToString p.read piece tokenTextCapacity
  { p with
    read := p.read ++ decoder.readOf p.read piece tokenTextCapacity
    output := p.output ++ tokenText
    pieces := p.pieces ++ [piece]
    texts := p.texts ++ [tokenText] }

/-- The newly safe prefix is streamed if it is long enough. -/
def stream (p : Progress) (stopTokens : List (List Char)) : Progress :=
  let safeLen := floorBoundary p.output (len p.output - maxStopLen stopTokens)
  if p.streamedLen < safeLen ∧ streamBatchBytes ≤ safeLen - p.streamedLen then
    { p with
      streamedLen := safeLen
      chunks := p.chunks ++ [dropUpTo (upTo p.output safeLen) p.streamedLen] }
  else p

/-- The loop over the tokens; an end-of-generation token follows them. -/
def loop (decoder : TextDecoder) (stopTokens : List (List Char)) (maxTokens : ℤ) :
    Progress → List Token → Outcome
  | p, [] => ⟨p, none, .ok p.output⟩
  | p, token :: tokens =>
    if maxTokens ≤ p.generated then ⟨p, none, .ok p.output⟩
    else
      match token.piece with
      | .error message => ⟨p, none, .error message⟩
      | .ok piece =>
        let tokenText := decoder.decodeToString p.read piece tokenTextCapacity
        let pushed := p.push decoder piece
        match stopScan stopTokens pushed.output tokenText with
        | some k => ⟨pushed, some k, .ok (trimEnd (upTo pushed.output k))⟩
        | none =>
          let streamed := pushed.stream stopTokens
          match token.evaluated with
          | .error message => ⟨streamed, none, .error message⟩
          | .ok () =>
            loop decoder stopTokens maxTokens { streamed with generated := p.generated + 1 } tokens

end Progress

/-- `ModelState::generate`; `prepared` is what comes of the model, the context and the prompt. -/
def generate (decoder : TextDecoder) (stopTokens : List (List Char)) (maxTokens : ℤ)
    (prepared : Except String Unit) (tokens : List Token) : Outcome :=
  match prepared with
  | .error message => ⟨.start, none, .error message⟩
  | .ok () => Progress.loop decoder stopTokens maxTokens .start tokens

/-- The terminal line of the exchange. -/
def Outcome.terminal (outcome : Outcome) : Response :=
  match outcome.result with
  | .ok text => .response text none
  | .error message => .response [] (some ("Generation failed: " ++ message))

/-- The lines that answer a `generate` request; `loaded` is what comes of the model that it names. -/
def answerGenerate (decoder : TextDecoder) (loaded prepared : Except String Unit)
    (stopTokens : Option (List (List Char))) (maxTokens : Option ℤ) (tokens : List Token) :
    List Response :=
  match loaded with
  | .error message => [.response [] (some ("Failed to load model: " ++ message))]
  | .ok () =>
    let outcome :=
      generate decoder (stopTokens.getD []) (maxTokens.getD 512) prepared tokens
    outcome.progress.chunks.map .chunk ++ [outcome.terminal]

/-! ## The scan for stop tokens -/

/-- The position of the first stop token in the list that occurs in a text. -/
def firstListed (stopTokens : List (List Char)) (text : List Char) : Option ℕ :=
  stopTokens.findSome? fun stopToken => find stopToken text

theorem firstListed_eq_none_iff {stopTokens : List (List Char)} {text : List Char} :
    firstListed stopTokens text = none ↔ ∀ stopToken ∈ stopTokens, find stopToken text = none :=
  List.findSome?_eq_none_iff

theorem len_le_maxStopLen {stopTokens : List (List Char)} {stopToken : List Char}
    (h : stopToken ∈ stopTokens) : len stopToken ≤ maxStopLen stopTokens := by
  have hmem : len stopToken ∈ stopTokens.map len := List.mem_map_of_mem h
  rw [maxStopLen]
  rcases hmax : (stopTokens.map len).max? with _ | m
  · rw [List.max?_eq_none_iff.mp hmax] at hmem
    cases hmem
  · exact (List.max?_eq_some_iff.mp hmax).2 _ hmem

/-- A stop token that did not occur before a piece was appended occurs where the scan looks. -/
theorem find_tail {stopTokens : List (List Char)} {stopToken old tokenText : List Char}
    (hmem : stopToken ∈ stopTokens) (hold : find stopToken old = none) :
    (find stopToken (dropUpTo (old ++ tokenText) (len old - maxStopLen stopTokens))).map
        (len (upTo (old ++ tokenText) (len old - maxStopLen stopTokens)) + ·) =
      find stopToken (old ++ tokenText) := by
  have hlen := len_le_maxStopLen hmem
  generalize hk : len old - maxStopLen stopTokens = k
  have hcut : upTo (old ++ tokenText) k = upTo old k := upTo_append (by omega) tokenText
  conv_rhs => rw [← upTo_append_dropUpTo (old ++ tokenText) k]
  refine (find_append fun before hbefore => ?_).symm
  rw [upTo_append_dropUpTo] at hbefore
  by_contra hlt
  -- the occurrence would lie in the old text
  have hin : before ++ stopToken <+: old := by
    refine prefix_of_len_le hbefore (List.prefix_append old tokenText) ?_
    have hle := len_upTo_le (old ++ tokenText) k
    rw [len_append]
    omega
  obtain ⟨j, hj, -⟩ := exists_find_le hin
  rw [hold] at hj
  cases hj

/-- The scan of the tail finds what a scan of the whole output would. -/
theorem stopScan_eq {stopTokens : List (List Char)} {old tokenText : List Char}
    (hne : ∀ stopToken ∈ stopTokens, stopToken ≠ [])
    (hold : firstListed stopTokens old = none) :
    stopScan stopTokens (old ++ tokenText) tokenText =
      firstListed stopTokens (old ++ tokenText) := by
  rw [firstListed_eq_none_iff] at hold
  rw [stopScan]
  split
  · have hfrom : len (old ++ tokenText) - (len tokenText + maxStopLen stopTokens) =
        len old - maxStopLen stopTokens := by
      rw [len_append]
      omega
    have hboundary : floorBoundary (old ++ tokenText) (len old - maxStopLen stopTokens) =
        len (upTo (old ++ tokenText) (len old - maxStopLen stopTokens)) :=
      floorBoundary_eq (by rw [len_append]; omega)
    simp only [hfrom, hboundary, dropUpTo, upTo_len_upTo]
    exact findSome?_congr fun stopToken hmem => find_tail hmem (hold stopToken hmem)
  · next hnone =>
    have hnil : stopTokens = [] := by
      rw [List.eq_nil_iff_forall_not_mem]
      intro stopToken hmem
      have hpos := len_le_maxStopLen hmem
      exact hne stopToken hmem (len_eq_zero.mp (by omega))
    simp [firstListed, hnil]

end LlamaHelper

end MeetilyLocal
