import MeetilyLocal.Summary.TokenSums

/-!
# Combining the summaries of the chunks

The embedding of `reduce_summaries` (`summary/processor.rs`). The summaries of the chunks of a transcript
may be too long for one call of the model, as the transcript was. A round batches those that fit into one
call, has the model combine each batch, and the rounds repeat with what they leave.

What the model returns is any function of the state of the world. All the loop does is in `Run`: what its
rounds batch, what they call the model with, and what is left (`run_reduceSummaries`).
-/

namespace MeetilyLocal

namespace SummaryProcessor

/-! ## The loop -/

/-- What the loop calls. -/
structure Llm (σ : Type) where
  /-- whether there is a token that is cancelled -/
  isCancelled : σ → Bool × σ
  /-- `generate_summary`, of a system prompt and a user prompt -/
  generate : List Char → List Char → σ → Except (List Char) (List Char) × σ

/-- `SYSTEM_PROMPT` -/
def systemPrompt : List Char := "You are an expert at synthesizing meeting summaries.".toList

/-- `USER_TEMPLATE`, with the joined summaries in its place for them -/
def userPrompt (joined : List Char) : List Char :=
  ("The following are consecutive summaries of a meeting. Combine them into a single, coherent, " ++
    "and detailed narrative summary that retains all important details, organized logically." ++
    "\n\n<summaries>\n").toList ++ joined ++ "\n</summaries>".toList

/-- What is returned where the token is cancelled. -/
def cancelledMessage : List Char := "Summary generation was cancelled".toList

/-- `MAX_ROUNDS` -/
def maxRounds : ℕ := 4

/-- The batches that are made, and the current one. -/
structure Packing where
  batches : List (List (List Char))
  current : List (List Char)
  currentTokens : ℕ

/-- A summary joins the current batch if it fits, or starts the next one. -/
def Packing.add (callBudget : ℕ) (packing : Packing) (summary : List Char) : Packing :=
  if packing.current ≠ [] ∧ callBudget < packing.currentTokens + tokens summary then
    ⟨packing.batches ++ [packing.current], [summary], tokens summary⟩
  else
    ⟨packing.batches, packing.current ++ [summary], packing.currentTokens + tokens summary⟩

/-- Greedily batch summaries. -/
def batchesOf (callBudget : ℕ) (summaries : List (List Char)) : List (List (List Char)) :=
  let packing := summaries.foldl (Packing.add callBudget) ⟨[], [], 0⟩
  if packing.current ≠ [] then packing.batches ++ [packing.current] else packing.batches

variable {σ : Type}

/-- The next summaries: one for each batch, by a call of the model if there is something to combine. -/
def combineBatches (llm : Llm σ) :
    List (List (List Char)) → σ → Except (List Char) (List (List Char)) × σ
  | [], w => (.ok [], w)
  | [summary] :: batches, w =>
    let (next, w) := combineBatches llm batches w
    (next.map (summary :: ·), w)
  | batch :: batches, w =>
    match llm.generate systemPrompt (userPrompt (join batch)) w with
    | (.error e, w) => (.error e, w)
    | (.ok combined, w) =>
      let (next, w) := combineBatches llm batches w
      (next.map (combined :: ·), w)

/-- The summaries that are left, after so many rounds at most. -/
def reduceFrom (llm : Llm σ) (callBudget : ℕ) :
    ℕ → List (List Char) → σ → Except (List Char) (List (List Char)) × σ
  | rounds, summaries, w =>
    if summaries.length ≤ 1 then (.ok summaries, w)
    else
      match rounds with
      | 0 => (.ok summaries, w)
      | rounds + 1 =>
        match llm.isCancelled w with
        | (true, w) => (.error cancelledMessage, w)
        | (false, w) =>
          let batches := batchesOf callBudget summaries
          if batches.all (·.length = 1) then (.ok batches.flatten, w)
          else
            match combineBatches llm batches w with
            | (.error e, w) => (.error e, w)
            | (.ok next, w) => reduceFrom llm callBudget rounds next w

/-- Hierarchically combine chunk summaries into one narrative. -/
def reduceSummaries (llm : Llm σ) (callBudget : ℕ) (summaries : List (List Char)) (w : σ) :
    Except (List Char) (List Char) × σ :=
  let (left, w) := reduceFrom llm callBudget maxRounds summaries w
  (left.map join, w)

/-! ## The batches -/

/-- What the batches of a round are. -/
structure Batches (callBudget : ℕ) (summaries : List (List Char))
    (batches : List (List (List Char))) : Prop where
  /-- they are all the summaries, in order -/
  cover : batches.flatten = summaries
  /-- each has one -/
  nonempty : ∀ batch ∈ batches, batch ≠ []
  /-- those to be combined are within the budget -/
  budget : callBudget < 2 ^ 26 → ∀ batch ∈ batches, 2 ≤ batch.length →
    roughTokenCount (join batch) ≤ callBudget

/-- What holds while they are made, after the summaries that are done. -/
structure Packed (callBudget : ℕ) (done : List (List Char)) (packing : Packing) : Prop where
  cover : packing.batches.flatten ++ packing.current = done
  nonempty : ∀ batch ∈ packing.batches, batch ≠ []
  counted : packing.currentTokens = (packing.current.map tokens).sum
  fits : ∀ batch ∈ packing.batches ++ [packing.current], 2 ≤ batch.length →
    (batch.map tokens).sum ≤ callBudget

theorem Packed.add {callBudget : ℕ} {done : List (List Char)} {packing : Packing}
    (h : Packed callBudget done packing) (summary : List Char) :
    Packed callBudget (done ++ [summary]) (packing.add callBudget summary) := by
  rw [Packing.add]
  split
  · next hfull =>
    refine ⟨?_, ?_, by simp, ?_⟩
    · simp [← h.cover]
    · exact List.forall_mem_append.mpr ⟨h.nonempty, List.forall_mem_singleton.mpr hfull.1⟩
    · refine List.forall_mem_append.mpr ⟨h.fits, List.forall_mem_singleton.mpr fun htwo => ?_⟩
      exact absurd htwo (by simp)
  · next hroom =>
    refine ⟨?_, h.nonempty, by simp [h.counted], ?_⟩
    · simp [← h.cover]
    · obtain ⟨hbatches, -⟩ := List.forall_mem_append.mp h.fits
      refine List.forall_mem_append.mpr ⟨hbatches, List.forall_mem_singleton.mpr fun htwo => ?_⟩
      -- the batch had a summary before, and then it was looked at
      have hcurrent : packing.current ≠ [] := by
        rintro hnil
        simp [hnil] at htwo
      have hfits := not_lt.mp fun hlt => hroom ⟨hcurrent, hlt⟩
      rw [h.counted] at hfits
      simpa using hfits

theorem packed_foldl (callBudget : ℕ) (summaries : List (List Char)) :
    Packed callBudget summaries (summaries.foldl (Packing.add callBudget) ⟨[], [], 0⟩) := by
  induction summaries using List.reverseRecOn with
  | nil => exact ⟨rfl, by simp, rfl, by simp⟩
  | append_singleton done summary ih =>
    rw [List.foldl_append]
    exact ih.add summary

theorem batches_batchesOf (callBudget : ℕ) (summaries : List (List Char)) :
    Batches callBudget summaries (batchesOf callBudget summaries) := by
  have hpacked := packed_foldl callBudget summaries
  have hbudget : callBudget < 2 ^ 26 → ∀ batch : List (List Char), 2 ≤ batch.length →
      (batch.map tokens).sum ≤ callBudget → roughTokenCount (join batch) ≤ callBudget :=
    fun hlt batch htwo hfits => (roughTokenCount_join_le htwo (by omega)).trans hfits
  rw [batchesOf]
  split
  · next hcurrent =>
    refine ⟨?_, ?_, fun hlt batch hbatch htwo => ?_⟩
    · simpa using hpacked.cover
    · exact List.forall_mem_append.mpr ⟨hpacked.nonempty, List.forall_mem_singleton.mpr hcurrent⟩
    · exact hbudget hlt batch htwo (hpacked.fits batch hbatch htwo)
  · next hcurrent =>
    refine ⟨?_, hpacked.nonempty, fun hlt batch hbatch htwo => ?_⟩
    · have hcover := hpacked.cover
      rwa [not_not.mp hcurrent, List.append_nil] at hcover
    · exact hbudget hlt batch htwo
        (hpacked.fits batch (List.mem_append_left _ hbatch) htwo)

/-- A round that combines anything leaves fewer. -/
theorem length_lt_of_batches {batches : List (List (List Char))}
    (hnonempty : ∀ batch ∈ batches, batch ≠ []) (h : ¬∀ batch ∈ batches, batch.length = 1) :
    batches.length < batches.flatten.length := by
  induction batches with
  | nil => exact absurd (by simp) h
  | cons batch batches ih =>
    obtain ⟨hbatch, hrest⟩ := List.forall_mem_cons.mp hnonempty
    have hpos := List.length_pos_of_ne_nil hbatch
    rw [List.flatten_cons, List.length_append, List.length_cons]
    by_cases hone : ∀ batch ∈ batches, batch.length = 1
    · have hlt : batch.length ≠ 1 := fun heq => h (List.forall_mem_cons.mpr ⟨heq, hone⟩)
      have hsum : batches.flatten.length = batches.length := by
        rw [List.length_flatten, List.map_congr_left hone]
        simp
      omega
    · have hlt := ih hrest hone
      omega

/-! ## The calls -/

/-- The calls of a round: one for each batch of two or more, in order. -/
def prompts (batches : List (List (List Char))) : List (List Char) :=
  (batches.filter (2 ≤ ·.length)).map fun batch => userPrompt (join batch)

/-- Calls of the model, up to the first one that fails. -/
def callAll (llm : Llm σ) : List (List Char) → σ → Except (List Char) (List (List Char)) × σ
  | [], w => (.ok [], w)
  | prompt :: more, w =>
    match llm.generate systemPrompt prompt w with
    | (.error e, w) => (.error e, w)
    | (.ok reply, w) =>
      let (replies, w) := callAll llm more w
      (replies.map (reply :: ·), w)

/-- A summary alone in its batch stays as it is; the others become the replies, in order. -/
def fill : List (List (List Char)) → List (List Char) → List (List Char)
  | [summary] :: batches, replies => summary :: fill batches replies
  | _ :: batches, reply :: replies => reply :: fill batches replies
  | _, _ => []

theorem fill_cons_of_length {batch : List (List Char)} (h : 2 ≤ batch.length)
    (batches : List (List (List Char))) (reply : List Char) (replies : List (List Char)) :
    fill (batch :: batches) (reply :: replies) = reply :: fill batches replies := by
  match batch, h with
  | _ :: _ :: _, _ => rfl

/-- A batch that is not one summary is a call. -/
theorem combineBatches_cons (llm : Llm σ) {batch : List (List Char)}
    (h : ∀ summary, batch ≠ [summary]) (batches : List (List (List Char))) (w : σ) :
    combineBatches llm (batch :: batches) w =
      match llm.generate systemPrompt (userPrompt (join batch)) w with
      | (.error e, w) => (.error e, w)
      | (.ok combined, w) =>
        let (next, w) := combineBatches llm batches w
        (next.map (combined :: ·), w) := by
  obtain _ | ⟨summary, _ | ⟨summary', summaries⟩⟩ := batch
  · rfl
  · exact absurd rfl (h summary)
  · rfl

/-- **What a round calls**: exactly one call has the summaries of a batch, if there are two or more. -/
theorem combineBatches_eq (llm : Llm σ) {batches : List (List (List Char))}
    (h : ∀ batch ∈ batches, batch ≠ []) (w : σ) :
    combineBatches llm batches w =
      ((callAll llm (prompts batches) w).1.map (fill batches), (callAll llm (prompts batches) w).2) := by
  induction batches generalizing w with
  | nil => rfl
  | cons batch batches ih =>
    obtain ⟨hbatch, hrest⟩ := List.forall_mem_cons.mp h
    match batch, hbatch with
    | [summary], _ =>
      have hprompts : prompts ([summary] :: batches) = prompts batches := by simp [prompts]
      rw [combineBatches, ih hrest, hprompts]
      rcases callAll llm (prompts batches) w with ⟨replies | replies, w'⟩ <;> rfl
    | summary :: summary' :: summaries, _ =>
      have hprompts : prompts ((summary :: summary' :: summaries) :: batches) =
          userPrompt (join (summary :: summary' :: summaries)) :: prompts batches := by
        simp [prompts]
      rw [combineBatches_cons llm (by simp), hprompts, callAll]
      rcases llm.generate systemPrompt (userPrompt (join (summary :: summary' :: summaries))) w with
        ⟨e | reply, w'⟩
      · rfl
      · simp only [ih hrest]
        rcases callAll llm (prompts batches) w' with ⟨e | replies, w''⟩ <;> rfl

theorem length_of_callAll {llm : Llm σ} {calls replies : List (List Char)} {w w' : σ}
    (h : callAll llm calls w = (.ok replies, w')) : replies.length = calls.length := by
  induction calls generalizing replies w with
  | nil =>
    obtain ⟨⟨⟩, -⟩ := Prod.mk.inj h
    rfl
  | cons prompt more ih =>
    rw [callAll] at h
    rcases hfirst : llm.generate systemPrompt prompt w with ⟨e | reply, w₁⟩
    · simp only [hfirst] at h
      exact nomatch (Prod.mk.inj h).1
    · rcases hmore : callAll llm more w₁ with ⟨e | rest, w₂⟩
      · simp only [hfirst, hmore] at h
        exact nomatch (Prod.mk.inj h).1
      · simp only [hfirst, hmore] at h
        obtain ⟨hreplies, rfl⟩ := Prod.mk.inj h
        obtain rfl := Except.ok.inj hreplies
        rw [List.length_cons, List.length_cons, ih hmore]

theorem length_fill {batches : List (List (List Char))} {replies : List (List Char)}
    (h : ∀ batch ∈ batches, batch ≠ []) (hreplies : replies.length = (prompts batches).length) :
    (fill batches replies).length = batches.length := by
  induction batches generalizing replies with
  | nil => rfl
  | cons batch batches ih =>
    obtain ⟨hbatch, hrest⟩ := List.forall_mem_cons.mp h
    match batch, hbatch with
    | [summary], _ =>
      have hmore : replies.length = (prompts batches).length := by simpa [prompts] using hreplies
      rw [fill, List.length_cons, List.length_cons, ih hrest hmore]
    | summary :: summary' :: summaries, _ =>
      cases replies with
      | nil => simp [prompts] at hreplies
      | cons reply replies =>
        rw [fill_cons_of_length (by simp), List.length_cons, List.length_cons,
          ih hrest (by simpa [prompts] using hreplies)]

/-! ## The runs of the loop -/

/-- A run of at most so many rounds, from a state of the world and the summaries, to what is left. -/
inductive Run (llm : Llm σ) (callBudget : ℕ) :
    ℕ → σ → List (List Char) → Except (List Char) (List (List Char)) → σ → Prop
  /-- there is nothing to combine -/
  | single {rounds w summaries} : summaries.length ≤ 1 →
      Run llm callBudget rounds w summaries (.ok summaries) w
  /-- the rounds are used up -/
  | capped {w summaries} : Run llm callBudget 0 w summaries (.ok summaries) w
  | cancelled {rounds w w' summaries} : llm.isCancelled w = (true, w') →
      Run llm callBudget (rounds + 1) w summaries (.error cancelledMessage) w'
  /-- no two summaries fit into one batch, and the model is not called -/
  | alone {rounds w w' summaries batches} : llm.isCancelled w = (false, w') →
      Batches callBudget summaries batches → (∀ batch ∈ batches, batch.length = 1) →
      Run llm callBudget (rounds + 1) w summaries (.ok summaries) w'
  /-- a call of the model fails -/
  | failed {rounds w w₁ w₂ summaries batches e} : llm.isCancelled w = (false, w₁) →
      Batches callBudget summaries batches →
      callAll llm (prompts batches) w₁ = (.error e, w₂) →
      Run llm callBudget (rounds + 1) w summaries (.error e) w₂
  /-- a round, which leaves fewer summaries, and what follows it -/
  | round {rounds w w₁ w₂ w' summaries batches replies left} :
      llm.isCancelled w = (false, w₁) → Batches callBudget summaries batches →
      callAll llm (prompts batches) w₁ = (.ok replies, w₂) →
      replies.length = (prompts batches).length →
      (fill batches replies).length < summaries.length →
      Run llm callBudget rounds w₂ (fill batches replies) left w' →
      Run llm callBudget (rounds + 1) w summaries left w'

theorem run_reduceFrom (llm : Llm σ) (callBudget rounds : ℕ) (summaries : List (List Char)) (w : σ) :
    Run llm callBudget rounds w summaries (reduceFrom llm callBudget rounds summaries w).1
      (reduceFrom llm callBudget rounds summaries w).2 := by
  induction rounds generalizing summaries w with
  | zero =>
    rw [reduceFrom]
    split
    · next hone => exact .single hone
    · exact .capped
  | succ rounds ih =>
    have hbatches := batches_batchesOf callBudget summaries
    rw [reduceFrom]
    split
    · next hone => exact .single hone
    rcases hcancelled : llm.isCancelled w with ⟨_ | _, w'⟩
    · simp only
      split
      · next hall =>
        rw [hbatches.cover]
        exact .alone hcancelled hbatches (by simpa using hall)
      · next hsome =>
        rw [combineBatches_eq llm hbatches.nonempty]
        rcases hcalls : callAll llm (prompts (batchesOf callBudget summaries)) w' with
          ⟨e | replies, w''⟩
        · exact .failed hcancelled hbatches hcalls
        · have hreplies := length_of_callAll hcalls
          refine .round hcancelled hbatches hcalls hreplies ?_ (ih _ _)
          rw [length_fill hbatches.nonempty hreplies]
          conv_rhs => rw [← hbatches.cover]
          exact length_lt_of_batches hbatches.nonempty (by simpa using hsome)
    · exact .cancelled hcancelled

/-- **Hierarchical reduction**: the summaries are combined in a run of at most four rounds, and what is
left is joined. -/
theorem run_reduceSummaries (llm : Llm σ) (callBudget : ℕ) (summaries : List (List Char)) (w : σ) :
    ∃ left w', Run llm callBudget 4 w summaries left w' ∧
      reduceSummaries llm callBudget summaries w = (left.map join, w') :=
  ⟨_, _, run_reduceFrom llm callBudget 4 summaries w, rfl⟩

/-! ### Estimates that are too large to be added up -/

/-- Beyond `2 ^ 28` an `f64` grows by 5872026 of its last places for each ASCII character, which is more
than the character weighs. -/
theorem round_add_ascii {j : ℕ} (h : 2 ^ 52 ≤ j) (hlt : j + 5872026 < 2 ^ 53) :
    Binary64.round (j / 2 ^ 24 + Binary64.round (35 / 100)) = (j + 5872026 : ℕ) / 2 ^ 24 := by
  have hlow : (2 ^ 52 : ℚ) ≤ j := by exact_mod_cast h
  have hhigh : (j + 5872026 : ℚ) < 2 ^ 53 := by exact_mod_cast hlt
  have hpos : (0 : ℚ) < j / 2 ^ 24 + 3152519739159347 / 9007199254740992 := by positivity
  have hplace : Binary.lastPlace 52 (j / 2 ^ 24 + 3152519739159347 / 9007199254740992) = -24 := by
    refine Binary.lastPlace_eq ?_ ?_
    · norm_num
      linarith
    · norm_num
      linarith
  have hscaled : (j / 2 ^ 24 + 3152519739159347 / 9007199254740992 : ℚ) / 2 ^ (-24 : ℤ) =
      (j + 5872025 : ℕ) + 322122547 / 536870912 := by
    push_cast
    norm_num
    ring
  have hfloor : ⌊((j + 5872025 : ℕ) + 322122547 / 536870912 : ℚ)⌋ = (j + 5872025 : ℕ) := by
    rw [Int.floor_eq_iff]
    constructor <;> norm_num
  have hfract : Int.fract ((j + 5872025 : ℕ) + 322122547 / 536870912 : ℚ) = 322122547 / 536870912 := by
    rw [Int.fract, hfloor]
    push_cast
    ring
  rw [round_ascii, Binary64.round, Binary.round_of_pos hpos, hplace, hscaled, Binary.roundHalfEven, hfract,
    hfloor, if_neg (by norm_num), if_pos (by norm_num)]
  push_cast
  norm_num
  ring

theorem addWeights_of_ascii {s : List Char} (hs : ∀ c ∈ s, c.toNat < 128) {j : ℕ} (h : 2 ^ 52 ≤ j)
    (hlt : j + s.length * 5872026 < 2 ^ 53) :
    addWeights (j / 2 ^ 24) s = (j + s.length * 5872026 : ℕ) / 2 ^ 24 := by
  induction s generalizing j with
  | nil => simp [addWeights]
  | cons c s ih =>
    obtain ⟨hc, hrest⟩ := List.forall_mem_cons.mp hs
    rw [List.length_cons] at hlt ⊢
    rw [addWeights_cons, charWeight, if_pos hc, round_add_ascii h (by omega),
      ih hrest (by omega) (by omega)]
    congr 2
    ring

/-- As many characters of three bytes. -/
def dense : List Char := List.replicate (2 ^ 28) 'あ'

/-- As many ASCII characters. -/
def ascii : List Char := List.replicate (2 ^ 28) 'a'

theorem length_dense : dense.length = 2 ^ 28 := List.length_replicate

theorem length_ascii : ascii.length = 2 ^ 28 := List.length_replicate

theorem charWeight_of_mem_dense {c : Char} (hc : c ∈ dense) : charWeight c = 1 := by
  rw [List.eq_of_mem_replicate hc]
  rfl

theorem tokens_dense : tokens dense = 2 ^ 28 + 2 := by
  have hshort : dense.length < 2 ^ 53 := by
    rw [length_dense]
    norm_num
  rw [tokens, roughTokenCount_separator,
    roughTokenCount_of_weights (fun _ => charWeight_of_mem_dense) hshort, length_dense]

theorem tokens_ascii_le : tokens ascii ≤ 93952414 := by
  have hweight : weight ascii = 2 ^ 28 * (3152519739159347 / 9007199254740992) := by
    rw [weight, ascii, List.map_replicate, List.sum_replicate, charWeight, if_pos (by decide),
      round_ascii]
    norm_num
  have hadd : addWeights 0 ascii ≤ 93952412 := by
    refine (addWeights_le le_rfl (m := 27) ?_).trans ?_ <;>
    · rw [hweight, length_ascii, unit]
      norm_num
  have hceil : ⌈addWeights 0 ascii⌉ ≤ 93952412 := Int.ceil_le.mpr (by exact_mod_cast hadd)
  rw [tokens, roughTokenCount_separator, roughTokenCount, Binary64.asUsize]
  omega

theorem roughTokenCount_join_dense_ascii : roughTokenCount (join [dense, ascii]) = 2 ^ 28 + 93952418 := by
  have hdense : addWeights 0 dense = (2 ^ 52 : ℕ) / 2 ^ 24 := by
    have hsum := addWeights_of_weights (fun _ => charWeight_of_mem_dense) (n := 0)
      (by rw [length_dense]; norm_num)
    rw [Nat.cast_zero, length_dense] at hsum
    rw [hsum]
    norm_num
  have hlength : (separator ++ ascii).length = 5 + 2 ^ 28 := by
    rw [List.length_append, length_ascii]
    rfl
  have hchars : ∀ c ∈ separator ++ ascii, c.toNat < 128 := by
    refine List.forall_mem_append.mpr ⟨by simp [separator], fun c hc => ?_⟩
    rw [List.eq_of_mem_replicate hc]
    decide
  have hjoin : join [dense, ascii] = dense ++ (separator ++ ascii) := by
    simp [join, List.intercalate]
  have hsum := addWeights_of_ascii hchars (j := 2 ^ 52) le_rfl (by rw [hlength]; norm_num)
  have hceil : ⌈((2 ^ 52 + (5 + 2 ^ 28) * 5872026 : ℕ) : ℚ) / 2 ^ 24⌉ = 2 ^ 28 + 93952418 := by
    rw [Int.ceil_eq_iff]
    constructor <;> norm_num
  rw [roughTokenCount, hjoin, addWeights_append, hdense, hsum, hlength, hceil]
  rfl

theorem batchesOf_pair {callBudget : ℕ} {summary summary' : List Char}
    (h : tokens summary + tokens summary' ≤ callBudget) :
    batchesOf callBudget [summary, summary'] = [[summary, summary']] := by
  simp [batchesOf, Packing.add, not_lt.mpr h]

/-- Joined, the second text is rounded up where it is not rounded alone. -/
theorem not_budget_dense_ascii : ∃ batch ∈ batchesOf (2 ^ 28 + 93952417) [dense, ascii],
    2 ≤ batch.length ∧ 2 ^ 28 + 93952417 < roughTokenCount (join batch) := by
  have hdense := tokens_dense
  have hascii := tokens_ascii_le
  rw [batchesOf_pair (by omega)]
  refine ⟨_, List.mem_singleton_self _, le_rfl, ?_⟩
  rw [roughTokenCount_join_dense_ascii]
  norm_num

end SummaryProcessor

end MeetilyLocal
