import MeetilyLocal.Database.ActionItems
import Mathlib.Logic.Relation
import Mathlib.Algebra.Order.Ring.Rat
import Mathlib.Tactic.Linarith

/-!
# Live action items

The loop of `summary/live_action_items.rs`, which has the model look for action items while a meeting is
recorded. Now and then it takes a snapshot of the transcript. If there is enough that is new, the model
gets the segments from 20 seconds before the watermark on, the latest end of a segment so far.

A segment that is finished late can start before that, and then no window has it: whether it is seen is
decided by the first extraction at which it is there (`kept_of_reaches`).
-/

namespace MeetilyLocal

namespace LiveActionItems

open ActionItemsRepository

/-! ## Segments -/

/-- What the code relies on of the seconds that it computes with. -/
structure Seconds (T : Type) [LinearOrder T] : Type where
  /-- `0.0` -/
  zero : T
  /-- `OVERLAP_SECS`, 20 seconds -/
  overlapSecs : T
  /-- `MIN_NEW_SECS`, 30 seconds -/
  minNewSecs : T
  /-- the difference of two times -/
  sub : T → T → T
  /-- differences are rounded in one direction -/
  sub_le_sub : ∀ a b c, a ≤ b → sub a c ≤ sub b c
  /-- a time that is 30 seconds later is later -/
  lt_of_le_sub : ∀ a b, minNewSecs ≤ sub a b → b < a

/-- A segment in memory (`audio/common.rs`). -/
structure TranscriptSegment (T : Type) : Type where
  /-- what was said -/
  text : List Char
  /-- when it starts -/
  audioStartTime : Option T
  /-- when it ends -/
  audioEndTime : Option T
  /-- who speaks -/
  speaker : Option String

/-- A segment, reduced to what extraction needs. -/
structure Segment (T : Type) : Type where
  /-- what was said -/
  text : List Char
  /-- when it starts -/
  start : Option T
  /-- when it ends -/
  stop : Option T
  /-- who speaks -/
  speaker : String
  deriving DecidableEq

/-- `Segment::from_common` -/
def Segment.fromCommon {T : Type} (t : TranscriptSegment T) : Segment T :=
  ⟨trim t.text, t.audioStartTime, t.audioEndTime, t.speaker.getD "Speaker"⟩

/-- `Segment::is_empty` -/
def Segment.isEmpty {T : Type} (s : Segment T) : Bool := s.text == []

/-- An item that is shown. -/
structure LiveItem : Type where
  text : String
  assignee : Option String
  dueHint : Option String
  startSecs : Option Float
  endSecs : Option Float

/-! ## The loop -/

/-- Where the loop is. -/
inductive Stage (T : Type) : Type where
  /-- the settings of the model are read -/
  | resolving
  /-- before the first tick, which is skipped -/
  | started
  /-- at the head of the loop -/
  | head
  /-- at a tick -/
  | tick
  /-- the model is called, with the latest end of a segment -/
  | calling (latest : T)
  /-- it has answered -/
  | answered (items : List NewActionItem)
  /-- items are about to be emitted -/
  | emitting (fresh : List LiveItem)
  /-- the loop has ended -/
  | ended

/-- An extraction: what there was of segments, the watermark, and what the model got. -/
structure Extraction (T : Type) : Type where
  segments : List (Segment T)
  watermark : T
  window : List (Segment T)
  deriving DecidableEq

/-- The world of a loop, and what came of it. -/
structure LiveState (T : Type) : Type where
  /-- `GENERATION` -/
  generation : ℕ
  /-- the generation of the loop -/
  mine : ℕ
  /-- the segments of the recording so far -/
  segments : List (TranscriptSegment T)
  stage : Stage T
  watermark : T
  seen : List (List Char)
  /-- the extractions so far -/
  extractions : List (Extraction T)
  /-- the items that were emitted so far -/
  emitted : List LiveItem

section Loop

variable {T : Type} [LinearOrder T] (secs : Seconds T) (tables : CaseTables)

/-- The snapshot that is taken at a tick. -/
def snapshot (segments : List (TranscriptSegment T)) : List (Segment T) :=
  (segments.map Segment.fromCommon).filter fun s => !s.isEmpty

/-- The latest end of a segment. -/
def latestEnd (segments : List (Segment T)) : T :=
  (segments.filterMap (·.stop)).foldl max secs.zero

/-- From where on the model gets the segments. -/
def cutoff (watermark : T) : T := max (secs.sub watermark secs.overlapSecs) secs.zero

/-- When a segment starts, for the window. -/
def startOf (s : Segment T) : T := s.start.getD secs.zero

def windowOf (watermark : T) (segments : List (Segment T)) : List (Segment T) :=
  segments.filter fun s => cutoff secs watermark ≤ startOf secs s

/-- A tick, up to the call of the model. -/
def runTick (s : LiveState T) : LiveState T :=
  let segments := snapshot s.segments
  let latest := latestEnd secs segments
  let window := windowOf secs s.watermark segments
  if segments = [] then { s with stage := .head }
  else if secs.sub latest s.watermark < secs.minNewSecs then { s with stage := .head }
  else if window = [] then { s with stage := .head, watermark := latest }
  else
    { s with
      stage := .calling latest
      extractions := s.extractions ++ [⟨segments, s.watermark, window⟩] }

/-- The key of an item. -/
def keyOf (text : String) : List Char := normalizeTextKey tables text

/-- The items that were not seen before, with what is seen then. -/
def freshItems : List (List Char) → List NewActionItem → List (List Char) × List LiveItem
  | seen, [] => (seen, [])
  | seen, item :: items =>
    if keyOf tables item.text ∈ seen then freshItems seen items
    else
      let (seen', fresh) := freshItems (seen ++ [keyOf tables item.text]) items
      (seen', ⟨item.text, item.assignee, item.dueHint, item.sourceStartSecs, item.sourceEndSecs⟩ ::
        fresh)

/-- The next step of the loop; `resolved` is whether the model could be resolved, and `items` what it
answers. -/
def loopStep (resolved : Bool) (items : List NewActionItem) (s : LiveState T) : LiveState T :=
  match s.stage with
  | .resolving => { s with stage := if resolved then .started else .ended }
  | .started => { s with stage := .head }
  | .head => { s with stage := if s.generation = s.mine then .tick else .ended }
  | .tick => runTick secs s
  | .calling latest => { s with stage := .answered items, watermark := latest }
  | .answered items =>
    -- superseded while the model was awaited
    if s.generation ≠ s.mine then { s with stage := .ended }
    else
      let (seen, fresh) := freshItems tables s.seen items
      { s with stage := .emitting fresh, seen := seen }
  | .emitting fresh => { s with stage := .head, emitted := s.emitted ++ fresh }
  | .ended => s

/-- What happens: segments are finished, another start or a stop, or a step of the loop. -/
inductive Step : LiveState T → LiveState T → Prop
  | grow (s : LiveState T) (segments : List (TranscriptSegment T))
      (h : ∀ t ∈ s.segments, t ∈ segments) : Step s { s with segments := segments }
  | supersede (s : LiveState T) : Step s { s with generation := s.generation + 1 }
  | loop (s : LiveState T) (resolved : Bool) (items : List NewActionItem) :
      Step s (loopStep secs tables resolved items s)

/-- What follows from a state. -/
def Reaches : LiveState T → LiveState T → Prop := Relation.ReflTransGen (Step secs tables)

/-- `start`, after so many starts and stops. -/
def start (generation : ℕ) (segments : List (TranscriptSegment T)) : LiveState T where
  generation := generation + 1
  mine := generation + 1
  segments := segments
  stage := .resolving
  watermark := secs.zero
  seen := []
  extractions := []
  emitted := []

/-! ## What holds in every state -/

/-- The items that have passed the check of the generation, and are not out yet. -/
def Stage.passed : Stage T → List LiveItem
  | .emitting fresh => fresh
  | _ => []

/-- What is out, or on its way. -/
def LiveState.committed (s : LiveState T) : List LiveItem := s.emitted ++ s.stage.passed

/-- **The books of a loop are kept**: on what the model got, and on what was emitted. -/
structure Kept (s : LiveState T) : Prop where
  /-- each window is what its watermark says -/
  window : ∀ e ∈ s.extractions, e.window = windowOf secs e.watermark e.segments
  /-- the watermarks rise -/
  rising : s.extractions.Pairwise fun e e' => e.watermark ≤ e'.watermark
  /-- none is above the present one -/
  below : ∀ e ∈ s.extractions, e.watermark ≤ s.watermark
  /-- which rises when the model has answered -/
  next : ∀ latest, s.stage = .calling latest → s.watermark ≤ latest
  /-- what is out was seen -/
  seen : ∀ item ∈ s.committed, keyOf tables item.text ∈ s.seen
  /-- and is out once -/
  once : (s.committed.map fun item => keyOf tables item.text).Nodup
  /-- no loop is from the future -/
  started : s.mine ≤ s.generation

variable {secs tables}

theorem kept_start (generation : ℕ) (segments : List (TranscriptSegment T)) :
    Kept secs tables (start secs generation segments) := by
  constructor <;> simp [start, LiveState.committed, Stage.passed]

variable (tables) in
theorem freshItems_subset (seen : List (List Char)) (items : List NewActionItem) :
    seen ⊆ (freshItems tables seen items).1 ∧
      ∀ item ∈ (freshItems tables seen items).2,
        keyOf tables item.text ∈ (freshItems tables seen items).1 := by
  induction items generalizing seen with
  | nil => simp [freshItems]
  | cons item items ih =>
    rw [freshItems]
    split_ifs with hseen
    · exact ih seen
    · obtain ⟨hsubset, hkeys⟩ := ih (seen ++ [keyOf tables item.text])
      refine ⟨List.Subset.trans (by simp) hsubset, ?_⟩
      rintro live (_ | ⟨_, hlive⟩)
      · apply hsubset
        simp
      · exact hkeys live hlive

theorem freshItems_notMem (seen : List (List Char)) (items : List NewActionItem) :
    ∀ item ∈ (freshItems tables seen items).2, keyOf tables item.text ∉ seen := by
  induction items generalizing seen with
  | nil => simp [freshItems]
  | cons item items ih =>
    rw [freshItems]
    split_ifs with hseen
    · exact ih seen
    · rintro live (_ | ⟨_, hlive⟩)
      · exact hseen
      · intro hmem
        apply ih (seen ++ [keyOf tables item.text]) live hlive
        simp [hmem]

theorem nodup_freshItems (seen : List (List Char)) (items : List NewActionItem) :
    ((freshItems tables seen items).2.map fun item => keyOf tables item.text).Nodup := by
  induction items generalizing seen with
  | nil => simp [freshItems]
  | cons item items ih =>
    rw [freshItems]
    split_ifs with hseen
    · exact ih seen
    · rw [List.map_cons, List.nodup_cons]
      refine ⟨?_, ih _⟩
      intro hmem
      obtain ⟨live, hlive, hkey⟩ := List.mem_map.mp hmem
      apply freshItems_notMem _ _ live hlive
      simp [hkey]

variable (secs) in
/-- What a tick does: it goes back to the head, with the watermark as it was or risen, or an extraction
is noted and the model called. -/
theorem runTick_cases (s : LiveState T) :
    (∃ w, s.watermark ≤ w ∧ runTick secs s = { s with stage := .head, watermark := w }) ∨
      ∃ latest, s.watermark ≤ latest ∧
        runTick secs s =
          { s with
            stage := .calling latest
            extractions := s.extractions ++
              [⟨snapshot s.segments, s.watermark, windowOf secs s.watermark (snapshot s.segments)⟩] } := by
  rw [runTick]
  split_ifs with hsegments hnew hwindow
  · exact .inl ⟨_, le_rfl, rfl⟩
  · exact .inl ⟨_, le_rfl, rfl⟩
  · exact .inl ⟨_, (secs.lt_of_le_sub _ _ (not_lt.mp hnew)).le, rfl⟩
  · exact .inr ⟨_, (secs.lt_of_le_sub _ _ (not_lt.mp hnew)).le, rfl⟩

theorem kept_runTick {s : LiveState T} (hstage : s.stage = .tick) (h : Kept secs tables s) :
    Kept secs tables (runTick secs s) := by
  have hcommitted : s.committed = s.emitted := by simp [LiveState.committed, hstage, Stage.passed]
  have hseen := h.seen
  have honce := h.once
  rw [hcommitted] at hseen honce
  obtain ⟨w, hw, heq⟩ | ⟨latest, hlatest, heq⟩ := runTick_cases secs s
  · rw [heq]
    refine ⟨h.window, h.rising, fun e he => (h.below e he).trans hw, ?_, ?_, ?_, h.started⟩
    · simp
    · simpa [LiveState.committed, Stage.passed] using hseen
    · simpa [LiveState.committed, Stage.passed] using honce
  · rw [heq]
    refine ⟨?_, ?_, ?_, ?_, ?_, ?_, h.started⟩
    · intro e he
      obtain he | rfl := List.mem_append.mp he |>.imp_right List.mem_singleton.mp
      · exact h.window e he
      · rfl
    · refine List.pairwise_append.mpr ⟨h.rising, List.pairwise_singleton _ _, ?_⟩
      rintro e he e' (_ | ⟨_, ⟨⟩⟩)
      exact h.below e he
    · intro e he
      obtain he | rfl := List.mem_append.mp he |>.imp_right List.mem_singleton.mp
      · exact h.below e he
      · exact le_rfl
    · rintro latest' ⟨⟩
      exact hlatest
    · simpa [LiveState.committed, Stage.passed] using hseen
    · simpa [LiveState.committed, Stage.passed] using honce

/-- Going on without a call of the model or new items. -/
theorem Kept.of_stage {s : LiveState T} (h : Kept secs tables s) {stage : Stage T}
    (hpassed : stage.passed = s.stage.passed) (hcalling : ∀ latest, stage ≠ .calling latest) :
    Kept secs tables { s with stage := stage } := by
  have hcommitted : ({ s with stage := stage } : LiveState T).committed = s.committed := by
    rw [LiveState.committed, LiveState.committed, hpassed]
  refine ⟨h.window, h.rising, h.below, fun latest hstage => absurd hstage (hcalling latest), ?_, ?_,
    h.started⟩
  · rw [hcommitted]
    exact h.seen
  · rw [hcommitted]
    exact h.once

theorem kept_loopStep (resolved : Bool) (items : List NewActionItem) {s : LiveState T}
    (h : Kept secs tables s) : Kept secs tables (loopStep secs tables resolved items s) := by
  have hseen := h.seen
  have honce := h.once
  rcases hstage : s.stage with _ | _ | _ | _ | latest | answers | fresh | _ <;>
    simp only [loopStep, hstage] <;> rw [LiveState.committed, hstage] at hseen honce
  case resolving =>
    apply h.of_stage <;> cases resolved <;> simp [hstage, Stage.passed]
  case started =>
    apply h.of_stage <;> simp [hstage, Stage.passed]
  case head =>
    split_ifs <;> apply h.of_stage <;> simp [hstage, Stage.passed]
  case tick => exact kept_runTick hstage h
  case calling =>
    refine ⟨h.window, h.rising, fun e he => (h.below e he).trans (h.next latest hstage), ?_, ?_, ?_,
      h.started⟩
    · simp
    · simpa [LiveState.committed, Stage.passed] using hseen
    · simpa [LiveState.committed, Stage.passed] using honce
  case answered =>
    split_ifs
    · apply h.of_stage <;> simp [hstage, Stage.passed]
    · simp only [Stage.passed, List.append_nil] at hseen honce
      obtain ⟨hsubset, hkeys⟩ := freshItems_subset tables s.seen answers
      refine ⟨h.window, h.rising, h.below, by simp, ?_, ?_, h.started⟩
      · intro item hitem
        obtain hitem | hitem := List.mem_append.mp hitem
        · exact hsubset (hseen item hitem)
        · exact hkeys item hitem
      · rw [LiveState.committed, List.map_append, List.nodup_append]
        refine ⟨honce, nodup_freshItems _ _, ?_⟩
        -- what is out was seen, and what is fresh was not
        rintro key hout _ hfresh rfl
        obtain ⟨item, hitem, rfl⟩ := List.mem_map.mp hout
        obtain ⟨live, hlive, hkey⟩ := List.mem_map.mp hfresh
        apply freshItems_notMem _ _ live hlive
        rw [hkey]
        exact hseen item hitem
  case emitting =>
    refine ⟨h.window, h.rising, h.below, by simp, ?_, ?_, h.started⟩
    · simpa [LiveState.committed, Stage.passed] using hseen
    · simpa [LiveState.committed, Stage.passed] using honce
  case ended => exact h

theorem kept_step {s s' : LiveState T} (hstep : Step secs tables s s') (h : Kept secs tables s) :
    Kept secs tables s' := by
  cases hstep with
  | grow segments hgrow => exact ⟨h.window, h.rising, h.below, h.next, h.seen, h.once, h.started⟩
  | supersede =>
    exact ⟨h.window, h.rising, h.below, h.next, h.seen, h.once, h.started.trans (Nat.le_succ _)⟩
  | loop resolved items => exact kept_loopStep resolved items h

/-- The books are kept in every run. -/
theorem kept_run {generation : ℕ} {segments : List (TranscriptSegment T)} {s : LiveState T}
    (hreach : Reaches secs tables (start secs generation segments) s) : Kept secs tables s := by
  induction hreach with
  | refl => exact kept_start generation segments
  | tail _ hstep ih => exact kept_step hstep ih

/-! ## After another start or a stop -/

/-- A loop that is superseded sends out at most what had passed the check by then. -/
theorem committed_step {s s' : LiveState T} (hstep : Step secs tables s s')
    (h : s.mine < s.generation) : s'.mine < s'.generation ∧ s'.committed = s.committed := by
  cases hstep with
  | grow => exact ⟨h, rfl⟩
  | supersede => exact ⟨h.trans (Nat.lt_succ_self _), rfl⟩
  | loop resolved items =>
    rcases hstage : s.stage with _ | _ | _ | _ | latest | answers | fresh | _ <;>
      simp only [loopStep, hstage]
    case resolving => cases resolved <;> exact ⟨h, by simp [LiveState.committed, hstage, Stage.passed]⟩
    case head => split_ifs <;> exact ⟨h, by simp [LiveState.committed, hstage, Stage.passed]⟩
    case tick =>
      obtain ⟨w, -, heq⟩ | ⟨latest, -, heq⟩ := runTick_cases secs s
      all_goals
        rw [heq]
        exact ⟨h, by simp [LiveState.committed, hstage, Stage.passed]⟩
    case answered =>
      rw [if_pos h.ne']
      exact ⟨h, by simp [LiveState.committed, hstage, Stage.passed]⟩
    case ended => exact ⟨h, trivial⟩
    all_goals exact ⟨h, by simp [LiveState.committed, hstage, Stage.passed]⟩

theorem committed_run {s s' : LiveState T} (hreach : Reaches secs tables s s')
    (h : s.mine < s.generation) : s'.mine < s'.generation ∧ s'.committed = s.committed := by
  induction hreach with
  | refl => exact ⟨h, rfl⟩
  | tail _ hstep ih =>
    obtain ⟨hlt, heq⟩ := ih
    obtain ⟨hlt', heq'⟩ := committed_step hstep hlt
    exact ⟨hlt', heq'.trans heq⟩

/-! ## What is seen of the recording -/

theorem cutoff_le_cutoff {w w' : T} (h : w ≤ w') : cutoff secs w ≤ cutoff secs w' :=
  max_le_max_right _ (secs.sub_le_sub _ _ _ h)

theorem mem_windowOf {w : T} {segments : List (Segment T)} {x : Segment T} :
    x ∈ windowOf secs w segments ↔ x ∈ segments ∧ cutoff secs w ≤ startOf secs x := by
  simp [windowOf]

theorem Kept.mem_window_iff {s : LiveState T} (h : Kept secs tables s)
    {before after : List (Extraction T)} {e : Extraction T}
    (hsplit : s.extractions = before ++ e :: after) {x : Segment T} (hx : x ∈ e.segments)
    (hfirst : ∀ e' ∈ before, x ∉ e'.segments) :
    ((∃ e' ∈ s.extractions, x ∈ e'.window) ↔ x ∈ e.window) ∧
      (x ∈ e.window ↔ cutoff secs e.watermark ≤ startOf secs x) := by
  have hmem : e ∈ s.extractions := by simp [hsplit]
  have hwindow : x ∈ e.window ↔ cutoff secs e.watermark ≤ startOf secs x := by
    rw [h.window e hmem, mem_windowOf, and_iff_right hx]
  refine ⟨⟨?_, fun hin => ⟨e, hmem, hin⟩⟩, hwindow⟩
  rintro ⟨e', hmem', hin⟩
  have hin' := hin
  rw [h.window e' hmem', mem_windowOf] at hin'
  rw [hsplit] at hmem'
  obtain hbefore | hafter := List.mem_append.mp hmem'
  · exact absurd hin'.1 (hfirst e' hbefore)
  · obtain rfl | hafter := List.mem_cons.mp hafter
    · exact hin
    · -- later extractions begin later
      have hrising := h.rising
      rw [hsplit, List.pairwise_append, List.pairwise_cons] at hrising
      apply hwindow.mpr
      exact (cutoff_le_cutoff (hrising.2.1.1 e' hafter)).trans hin'.2

end Loop

/-! ## A segment that is finished late -/

/-- Times without rounding. -/
def exactSeconds : Seconds ℚ where
  zero := 0
  overlapSecs := 20
  minNewSecs := 30
  sub := (· - ·)
  sub_le_sub _ _ c h := sub_le_sub_right h c
  lt_of_le_sub a b h := by linarith

/-- The others have spoken for 100 seconds, and then for 40. -/
def early : TranscriptSegment ℚ := ⟨['h', 'i'], some 0, some 100, none⟩

def later : TranscriptSegment ℚ := ⟨['o', 'k'], some 100, some 140, none⟩

/-- In between the microphone has heard something, which is transcribed after the first tick. -/
def slow : TranscriptSegment ℚ := ⟨['g', 'o'], some 50, some 60, none⟩

/-- So many steps of the loop, with a model that always finds the same item. -/
def afterSteps (n : ℕ) (s : LiveState ℚ) : LiveState ℚ :=
  (loopStep exactSeconds .onlyAscii true [⟨"Send it", none, none, none, none, none⟩])^[n] s

theorem reaches_afterSteps (n : ℕ) (s : LiveState ℚ) :
    Reaches exactSeconds .onlyAscii s (afterSteps n s) := by
  induction n with
  | zero => exact .refl
  | succ n ih =>
    rw [afterSteps, Function.iterate_succ_apply']
    exact ih.tail (.loop _ _ _)

/-- Two extractions, after the second of which the item is about to be compared with what was seen. -/
def lateRun : LiveState ℚ :=
  afterSteps 5 { afterSteps 7 (start exactSeconds 0 [early]) with segments := [early, slow, later] }

/-- The loop leaves the recording as it is. -/
theorem segments_afterSteps (n : ℕ) (s : LiveState ℚ) : (afterSteps n s).segments = s.segments := by
  induction n with
  | zero => rfl
  | succ n ih =>
    rw [← ih, afterSteps, Function.iterate_succ_apply', ← afterSteps]
    rcases hstage : (afterSteps n s).stage <;> simp only [loopStep, hstage]
    case tick =>
      obtain ⟨w, -, heq⟩ | ⟨latest, -, heq⟩ := runTick_cases exactSeconds (afterSteps n s)
      all_goals rw [heq]
    case answered => split_ifs <;> rfl

theorem reaches_lateRun : Reaches exactSeconds .onlyAscii (start exactSeconds 0 [early]) lateRun := by
  refine ((reaches_afterSteps 7 _).tail (.grow _ [early, slow, later] ?_)).trans
    (reaches_afterSteps 5 _)
  intro t ht
  rw [segments_afterSteps] at ht
  simp [List.mem_singleton.mp ht]

end LiveActionItems

end MeetilyLocal
