import Mathlib.Data.List.Sort
import MeetilyLocal.Audio.TranscriptJournal
import MeetilyLocal.Library.Decimal
import MeetilyLocal.Library.Json

/-!
# Replaying a journal that was cut off

What a crash in the middle of an append leaves is the journal cut off after some byte. The replay
should then return the segments whose lines were written completely: the last one written under
each key, in chronological order (`ReplaysCompleteLines`).

It does exactly if the cut is between two characters (`replaysCompleteLines_iff`). A cut inside a
line leaves a proper prefix of a JSON object, which is not JSON, so the line is skipped as the
code's own comment says. But the file is first read as one string: a cut inside the bytes of one
character makes all of it invalid UTF-8, and then the replay fails and returns nothing.
-/

namespace MeetilyLocal

/-- The segment that a segment reads back as. -/
def Serde.reread (serde : Serde) (segment : TranscriptSegment) : TranscriptSegment :=
  { segment with
    audioStartTime := segment.audioStartTime.bind serde.float64
    audioEndTime := segment.audioEndTime.bind serde.float64
    duration := segment.duration.bind serde.float64
    confidence := segment.confidence.bind serde.float32 }

/-- The JSON text of a segment. -/
def Serde.line (serde : Serde) (segment : TranscriptSegment) : List Char :=
  match serde.toString segment with
  | .ok line => line
  | .error _ => []

/-- The codec writes the segment as an object on one line and reads it back. -/
structure Serde.Keeps (serde : Serde) (segment : TranscriptSegment) : Prop where
  /-- writing it succeeds -/
  toString_eq : serde.toString segment = .ok (serde.line segment)
  /-- it is written as an object -/
  isObject : Json.IsObject (serde.line segment)
  /-- control characters are escaped -/
  printable : ∀ c ∈ serde.line segment, ' ' ≤ c
  /-- what was written can be read -/
  fromStr_eq : serde.fromStr (serde.line segment) = .ok (serde.reread segment)

/-- What the codec reads is JSON, and JSON has no NaN. -/
structure Serde.ReadsJson (serde : Serde) : Prop where
  /-- only JSON texts are read -/
  isJson {text : List Char} {segment : TranscriptSegment} :
    serde.fromStr text = .ok segment → Json.IsJson text
  /-- numbers are read as numbers -/
  isNaN_float64 {x y : Float} : serde.float64 x = some y → y.isNaN = false

namespace TranscriptJournal

/-! ## Keys -/

/-- The two segments are versions of one: they have the same sequence number, or they have none
and the same id. -/
def SameKey (a b : TranscriptSegment) : Prop :=
  a.sequenceId = b.sequenceId ∧ (a.sequenceId = none → a.id = b.id)

instance : DecidableRel SameKey := fun a b =>
  inferInstanceAs (Decidable (a.sequenceId = b.sequenceId ∧ (a.sequenceId = none → a.id = b.id)))

theorem seq_ne_id (s t : String) : "seq:" ++ s ≠ "id:" ++ t := by
  intro h
  have hlist := congrArg String.toList h
  simp at hlist

/-- The key tells apart what it should. -/
theorem journalReplayKey_eq_iff (a b : TranscriptSegment) :
    journalReplayKey a = journalReplayKey b ↔ SameKey a b := by
  rcases ha : a.sequenceId with _ | m <;> rcases hb : b.sequenceId with _ | n
  · simp [journalReplayKey, SameKey, ha, hb]
  · simp [journalReplayKey, SameKey, ha, hb, (seq_ne_id _ _).symm]
  · simp [journalReplayKey, SameKey, ha, hb, seq_ne_id]
  · simp [journalReplayKey, SameKey, ha, hb, Decimal.repr_injective.eq_iff, UInt64.toNat_inj]

/-- The last segment written under each key. -/
def lastWrites : List TranscriptSegment → List TranscriptSegment
  | [] => []
  | segment :: later =>
    if ∃ segment' ∈ later, SameKey segment segment' then lastWrites later
    else segment :: lastWrites later

theorem mem_of_mem_lastWrites {segments : List TranscriptSegment} {segment : TranscriptSegment}
    (h : segment ∈ lastWrites segments) : segment ∈ segments := by
  induction segments with
  | nil => exact h
  | cons segment' later ih =>
    rw [lastWrites] at h
    split at h
    · exact List.mem_cons_of_mem _ (ih h)
    · rcases List.mem_cons.mp h with rfl | hlater
      · exact List.mem_cons_self
      · exact List.mem_cons_of_mem _ (ih hlater)

/-- Insert a segment under its key. -/
def insertSegment (byKey : List (String × TranscriptSegment)) (segment : TranscriptSegment) :
    List (String × TranscriptSegment) :=
  insertByKey byKey (journalReplayKey segment) segment

/-- None of the segments has the key. -/
def isFresh (segments : List TranscriptSegment) (key : String) : Bool :=
  segments.all fun segment => key != journalReplayKey segment

theorem isFresh_eq_false_iff (segments : List TranscriptSegment) (segment : TranscriptSegment) :
    isFresh segments (journalReplayKey segment) = false ↔
      ∃ segment' ∈ segments, SameKey segment segment' := by
  simp [isFresh, journalReplayKey_eq_iff]

/-- What a map holds after some insertions: what it held under other keys, and the last segment
inserted under each key. -/
theorem foldl_insertSegment (segments : List TranscriptSegment)
    (byKey : List (String × TranscriptSegment)) :
    segments.foldl insertSegment byKey =
      byKey.filter (fun entry => isFresh segments entry.1) ++
        (lastWrites segments).map fun segment => (journalReplayKey segment, segment) := by
  induction segments generalizing byKey with
  | nil => simp [lastWrites, isFresh]
  | cons segment later ih =>
    have hfilter : byKey.filter (fun entry =>
        isFresh later entry.1 && entry.1 != journalReplayKey segment) =
        byKey.filter fun entry => isFresh (segment :: later) entry.1 := by
      simp [isFresh, Bool.and_comm]
    rw [List.foldl_cons, ih, insertSegment, insertByKey, List.filter_append, List.filter_filter,
      hfilter]
    rcases h : isFresh later (journalReplayKey segment) with _ | _
    · rw [List.filter_cons_of_neg (by simp [h]), lastWrites,
        if_pos ((isFresh_eq_false_iff _ _).mp h)]
      simp
    · rw [List.filter_cons_of_pos (by exact h), lastWrites,
        if_neg (fun hex => by simp [(isFresh_eq_false_iff _ _).mpr hex] at h)]
      simp

/-- The values of the map are the last writes. -/
theorem map_snd_foldl_insertSegment (segments : List TranscriptSegment) :
    (segments.foldl insertSegment []).map Prod.snd = lastWrites segments := by
  simp [foldl_insertSegment, Function.comp_def]

/-! ## Order -/

/-- The rank that a segment is sorted by. -/
def sortRank (segment : TranscriptSegment) : Float64.Rank ×ₗ ℕ :=
  toLex (Float64.rank (sortTime segment), sortSequence segment)

/-- Segments whose times are numbers compare as their ranks do. -/
theorem compareSegments_eq {a b : TranscriptSegment} (ha : (sortTime a).isNaN = false)
    (hb : (sortTime b).isNaN = false) : compareSegments a b = compare (sortRank a) (sortRank b) := by
  rw [compareSegments, Float64.partialCmp_eq ha hb, Option.getD_some]
  exact (Float64.compare_toLex (Float64.rank (sortTime a), _) (Float64.rank (sortTime b), _)).symm

theorem chronological_iff {a b : TranscriptSegment} (ha : (sortTime a).isNaN = false)
    (hb : (sortTime b).isNaN = false) : chronological a b = decide (sortRank a ≤ sortRank b) := by
  rw [chronological, compareSegments_eq ha hb, Bool.eq_iff_iff, decide_eq_true_iff,
    ← Ordering.ne_gt_iff_isLE]
  exact compare_le_iff_le

/-- `a` ranks no higher than `b`. -/
def rankLE (a b : TranscriptSegment) : Bool := decide (sortRank a ≤ sortRank b)

theorem rankLE_trans (a b c : TranscriptSegment) (hab : rankLE a b = true)
    (hbc : rankLE b c = true) : rankLE a c = true :=
  decide_eq_true ((of_decide_eq_true hab).trans (of_decide_eq_true hbc))

theorem rankLE_total (a b : TranscriptSegment) : (rankLE a b || rankLE b a) = true := by
  simpa [rankLE] using le_total (sortRank a) (sortRank b)

/-- Segments whose times are numbers are sorted by rank. -/
theorem sortSegmentsChronologically_eq {segments : List TranscriptSegment}
    (h : ∀ segment ∈ segments, (sortTime segment).isNaN = false) :
    sortSegmentsChronologically segments = segments.mergeSort rankLE := by
  have hmap := List.map_mergeSort (f := id) (r := chronological) (s := rankLE) (l := segments)
    fun a ha b hb => chronological_iff (h a ha) (h b hb)
  simpa [sortSegmentsChronologically] using hmap

/-- Sorting arranges segments whose times are numbers in chronological order. -/
theorem pairwise_sortSegmentsChronologically {segments : List TranscriptSegment}
    (h : ∀ segment ∈ segments, (sortTime segment).isNaN = false) :
    (sortSegmentsChronologically segments).Pairwise fun a b => chronological a b = true := by
  rw [sortSegmentsChronologically_eq h]
  have hsorted := List.pairwise_mergeSort rankLE_trans rankLE_total segments
  refine hsorted.imp_of_mem fun {a b} ha hb hab => ?_
  rwa [chronological_iff (h a (List.mem_mergeSort.mp ha)) (h b (List.mem_mergeSort.mp hb))]

theorem isNaN_sortTime_reread {serde : Serde} (hserde : serde.ReadsJson)
    (segment : TranscriptSegment) : (sortTime (serde.reread segment)).isNaN = false := by
  rcases h : segment.audioStartTime.bind serde.float64 with _ | y
  · simpa [sortTime, Serde.reread, h] using Float64.isNaN_max
  · obtain ⟨x, -, hx⟩ := Option.bind_eq_some_iff.mp h
    simpa [sortTime, Serde.reread, h] using hserde.isNaN_float64 hx

/-! ## Lines -/

theorem isWhiteSpace_brace : isWhiteSpace '{' = false ∧ isWhiteSpace '}' = false := by decide

theorem not_mem_line {serde : Serde} {segment : TranscriptSegment} (h : serde.Keeps segment)
    {c : Char} (hc : c < ' ') : c ∉ serde.line segment :=
  fun hmem => not_le_of_gt hc (h.printable c hmem)

/-- A complete line puts its segment into the map. -/
theorem replayLine_line {serde : Serde} {segment : TranscriptSegment} (h : serde.Keeps segment)
    (byKey : List (String × TranscriptSegment)) :
    replayLine serde byKey (serde.line segment) = insertSegment byKey (serde.reread segment) := by
  obtain ⟨hopen, hclose⟩ := isWhiteSpace_brace
  have htrim : trim (serde.line segment) = serde.line segment :=
    trim_eq h.isObject.head? hopen h.isObject.getLast? hclose
  have hne : (serde.line segment).isEmpty = false := by
    obtain ⟨rest, hrest⟩ := List.head?_eq_some_iff.mp h.isObject.head?
    rw [hrest, List.isEmpty_cons]
  rw [replayLine, htrim, hne, h.fromStr_eq]
  rfl

/-- A line that was cut off is skipped. -/
theorem replayLine_torn {serde : Serde} (hserde : serde.ReadsJson) {segment : TranscriptSegment}
    (h : serde.Keeps segment) {torn : List Char} (htorn : torn <+: serde.line segment)
    (hne : torn ≠ []) (hproper : torn ≠ serde.line segment)
    (byKey : List (String × TranscriptSegment)) : replayLine serde byKey torn = byKey := by
  obtain ⟨hopen, -⟩ := isWhiteSpace_brace
  have hhead : torn.head? = some '{' := by
    obtain ⟨rest, hrest⟩ := htorn
    rw [← h.isObject.head?, ← hrest, List.head?_append_of_ne_nil _ hne]
  have htrim : trim torn <+: torn := trim_prefix hhead hopen
  have hnot : ¬Json.IsJson (trim torn) := by
    refine Json.not_isJson_of_prefix h.isObject (htrim.trans htorn) (trim_ne_nil hhead hopen) ?_
    intro heq
    exact hproper (htorn.eq_of_length_le (heq ▸ htrim.length_le))
  rw [replayLine]
  rcases hread : serde.fromStr (trim torn) with message | segment'
  · simp
  · exact absurd (hserde.isJson hread) hnot

/-! ## The journal -/

/-- The text of a journal. -/
def journalText (serde : Serde) (segments : List TranscriptSegment) : List Char :=
  segments.flatMap fun segment => serde.line segment ++ ['\n']

/-- The segments whose JSON text lies completely within the first `k` bytes of the journal. -/
def completeSegments (serde : Serde) : List TranscriptSegment → ℕ → List TranscriptSegment
  | [], _ => []
  | segment :: segments, k =>
    let size := (Utf8.encode (serde.line segment)).length
    if size ≤ k then segment :: completeSegments serde segments (k - (size + 1)) else []

theorem journalText_cons (serde : Serde) (segment : TranscriptSegment)
    (segments : List TranscriptSegment) : journalText serde (segment :: segments) =
      serde.line segment ++ '\n' :: journalText serde segments := by
  simp [journalText]

theorem line_ne_nil {serde : Serde} {segment : TranscriptSegment} (h : serde.Keeps segment) :
    serde.line segment ≠ [] := by
  obtain ⟨rest, hrest⟩ := List.head?_eq_some_iff.mp h.isObject.head?
  exact hrest ▸ List.cons_ne_nil _ _

/-- No bytes, no segments. -/
theorem completeSegments_zero {serde : Serde} {segments : List TranscriptSegment}
    (h : ∀ segment ∈ segments, serde.Keeps segment) : completeSegments serde segments 0 = [] := by
  rcases segments with _ | ⟨segment, segments⟩
  · rfl
  · have hpos := Utf8.length_encode_pos (line_ne_nil (h segment List.mem_cons_self))
    exact if_neg (Nat.not_le_of_gt hpos)

/-- What the bytes of a line, its line feed and something more hold. -/
theorem completeSegments_cons (serde : Serde) (segment : TranscriptSegment)
    (segments : List TranscriptSegment) (k : ℕ) :
    completeSegments serde (segment :: segments)
        ((Utf8.encode (serde.line segment)).length + (k + 1)) =
      segment :: completeSegments serde segments k := by
  rw [completeSegments, if_pos (Nat.le_add_right _ _)]
  congr 2
  omega

/-- The lines among the first characters of a journal put the complete segments into the map. -/
theorem foldl_replayLine_take {serde : Serde} (hserde : serde.ReadsJson)
    {segments : List TranscriptSegment} (h : ∀ segment ∈ segments, serde.Keeps segment) (n : ℕ)
    (byKey : List (String × TranscriptSegment)) :
    (lines ((journalText serde segments).take n)).foldl (replayLine serde) byKey =
      ((completeSegments serde segments
        (Utf8.encode ((journalText serde segments).take n)).length).map
          serde.reread).foldl insertSegment byKey := by
  induction segments generalizing n byKey with
  | nil => simp [journalText, lines, splitInclusive, completeSegments]
  | cons segment segments ih =>
    obtain ⟨hsegment, hsegments⟩ := List.forall_mem_cons.mp h
    have hfeed : '\n' ∉ serde.line segment := not_mem_line hsegment (by decide)
    have hreturn : (serde.line segment).getLast? ≠ some '\r' :=
      fun hlast => not_mem_line hsegment (by decide) (List.mem_of_getLast? hlast)
    rw [journalText_cons]
    rcases lt_trichotomy n (serde.line segment).length with hlt | rfl | hgt
    · -- the cut is inside the line
      rw [List.take_append_of_le_length hlt.le]
      have hnone : completeSegments serde (segment :: segments)
          (Utf8.encode ((serde.line segment).take n)).length = [] :=
        if_neg (Nat.not_le_of_gt (Utf8.length_encode_take_lt hlt))
      rw [hnone]
      rcases Nat.eq_zero_or_pos n with rfl | hpos
      · simp [lines, splitInclusive]
      · have hne : (serde.line segment).take n ≠ [] := by
          simp [hpos.ne', line_ne_nil hsegment]
        have hproper : (serde.line segment).take n ≠ serde.line segment :=
          fun heq => hlt.ne (List.take_eq_self_iff _ |>.mp heq |>.antisymm' hlt.le)
        rw [lines_of_not_mem (fun hmem => hfeed (List.mem_of_mem_take hmem)) hne]
        exact replayLine_torn hserde hsegment (List.take_prefix _ _) hne hproper byKey
    · -- only the line feed is missing
      rw [List.take_append_of_le_length le_rfl, List.take_length,
        lines_of_not_mem hfeed (line_ne_nil hsegment), completeSegments, if_pos le_rfl,
        Nat.sub_eq_zero_of_le (Nat.le_succ _), completeSegments_zero hsegments]
      exact replayLine_line hsegment byKey
    · -- the cut is after the line
      obtain ⟨m, rfl⟩ := Nat.exists_eq_add_of_lt hgt
      have htake : (serde.line segment ++ '\n' :: journalText serde segments).take
          ((serde.line segment).length + m + 1) =
          serde.line segment ++ '\n' :: (journalText serde segments).take m := by
        rw [Nat.add_assoc, List.take_length_add_append, List.take_succ_cons]
      have hsize : (Utf8.encode (serde.line segment ++
          '\n' :: (journalText serde segments).take m)).length =
          (Utf8.encode (serde.line segment)).length +
            ((Utf8.encode ((journalText serde segments).take m)).length + 1) := by
        rw [Utf8.encode_append, List.length_append]
        rfl
      rw [htake, lines_append hfeed hreturn, hsize, completeSegments_cons, List.foldl_cons,
        replayLine_line hsegment, ih hsegments, List.map_cons, List.foldl_cons]

/-- Appending segments that the codec keeps succeeds and adds their lines. -/
theorem appendAll_eq {serde : Serde} {segments : List TranscriptSegment}
    (h : ∀ segment ∈ segments, serde.Keeps segment) (hne : segments ≠ []) (folder : Directory) :
    appendAll serde folder segments = (.ok (), Function.update folder transcriptsJournalFilename
      (some ((folder transcriptsJournalFilename).getD [] ++
        Utf8.encode (journalText serde segments)))) := by
  induction segments generalizing folder with
  | nil => exact absurd rfl hne
  | cons segment segments ih =>
    obtain ⟨hsegment, hsegments⟩ := List.forall_mem_cons.mp h
    have happend : appendTranscriptJournalLine serde folder segment .ok =
        (.ok (), Function.update folder transcriptsJournalFilename
          (some ((folder transcriptsJournalFilename).getD [] ++
            Utf8.encode (serde.line segment ++ ['\n'])))) := by
      rw [appendTranscriptJournalLine, hsegment.toString_eq]
      rfl
    rw [appendAll, happend]
    rcases segments with _ | ⟨segment', segments⟩
    · simp [appendAll, journalText]
    · have hstep := ih hsegments (List.cons_ne_nil _ _) (Function.update folder
        transcriptsJournalFilename (some ((folder transcriptsJournalFilename).getD [] ++
          Utf8.encode (serde.line segment ++ ['\n']))))
      have htext : Utf8.encode (serde.line segment ++ ['\n']) ++
          Utf8.encode (journalText serde (segment' :: segments)) =
          Utf8.encode (journalText serde (segment :: segment' :: segments)) := by
        rw [← Utf8.encode_append, journalText_cons serde segment, List.append_assoc]
        rfl
      simp only [hstep, Function.update_idem, Function.update_self, Option.getD_some,
        List.append_assoc, htext]

/-! ## Torn journals -/

/-- The replay succeeds and returns, in chronological order, the last write under each key among
the segments whose lines are complete in the first `k` bytes. -/
def ReplaysCompleteLines (serde : Serde) (order : IterationOrder)
    (segments : List TranscriptSegment) (k : ℕ) (folder : Directory) : Prop :=
  ∃ result, replayTranscriptJournal serde order folder = .ok result ∧
    result.Perm (lastWrites ((completeSegments serde segments k).map serde.reread)) ∧
    result.Pairwise fun a b => chronological a b = true

section Torn

variable {serde : Serde} {folder full : Directory} {segments : List TranscriptSegment}
  {bytes : List UInt8} {k : ℕ}

theorem bytes_eq (hkeeps : ∀ segment ∈ segments, serde.Keeps segment)
    (hnew : folder transcriptsJournalFilename = none)
    (happend : appendAll serde folder segments = (.ok (), full))
    (hbytes : full transcriptsJournalFilename = some bytes) :
    bytes = Utf8.encode (journalText serde segments) := by
  rcases eq_or_ne segments [] with rfl | hne
  · cases happend
    exact absurd (hnew.symm.trans hbytes) (by simp)
  · obtain ⟨-, rfl⟩ := Prod.mk.inj ((appendAll_eq hkeeps hne folder).symm.trans happend)
    rw [Function.update_self, hnew] at hbytes
    simpa using hbytes.symm

/-- The replay of a journal that was cut off between two characters. -/
theorem replaysCompleteLines_of_isCharBoundary (hserde : serde.ReadsJson) (order : IterationOrder)
    (hkeeps : ∀ segment ∈ segments, serde.Keeps segment)
    (hbytes : full transcriptsJournalFilename = some (Utf8.encode (journalText serde segments)))
    (hk : k ≤ (Utf8.encode (journalText serde segments)).length)
    (hcut : Utf8.IsCharBoundary (Utf8.encode (journalText serde segments)) k) :
    ReplaysCompleteLines serde order segments k (full.tear transcriptsJournalFilename k) := by
  obtain ⟨chars, hchars⟩ := Option.isSome_iff_exists.mp
    ((Utf8.decode_take_isSome_iff _ hk).mpr hcut)
  obtain ⟨n, rfl, hn⟩ := Utf8.exists_take_of_decode_take hchars
  have hread : (full.tear transcriptsJournalFilename k).readToString transcriptsJournalFilename =
      .ok ((journalText serde segments).take n) := by
    simp [Directory.readToString, Directory.tear, hbytes, hchars]
  have hsize : (Utf8.encode ((journalText serde segments).take n)).length = k := by
    rw [hn, List.length_take_of_le hk]
  have hperm := order.perm (lastWrites ((completeSegments serde segments k).map serde.reread))
  refine ⟨sortSegmentsChronologically (order.arrange
    (lastWrites ((completeSegments serde segments k).map serde.reread))), ?_, ?_, ?_⟩
  · rw [replayTranscriptJournal, hread]
    simp only [foldl_replayLine_take hserde hkeeps, hsize, map_snd_foldl_insertSegment]
  · exact (List.mergeSort_perm _ _).trans hperm
  · refine pairwise_sortSegmentsChronologically fun segment hmem => ?_
    obtain ⟨segment', -, rfl⟩ := List.mem_map.mp (mem_of_mem_lastWrites (hperm.mem_iff.mp hmem))
    exact isNaN_sortTime_reread hserde segment'

/-- The replay of a journal that was cut off inside a character. -/
theorem replay_eq_error_of_not_isCharBoundary (order : IterationOrder)
    (hbytes : full transcriptsJournalFilename = some (Utf8.encode (journalText serde segments)))
    (hk : k ≤ (Utf8.encode (journalText serde segments)).length)
    (hcut : ¬Utf8.IsCharBoundary (Utf8.encode (journalText serde segments)) k) :
    replayTranscriptJournal serde order (full.tear transcriptsJournalFilename k) =
      .error "stream did not contain valid UTF-8" := by
  have hnone : Utf8.decode ((Utf8.encode (journalText serde segments)).take k) = none := by
    rw [← Option.not_isSome_iff_eq_none, Utf8.decode_take_isSome_iff _ hk]
    exact hcut
  have hread : (full.tear transcriptsJournalFilename k).readToString transcriptsJournalFilename =
      .error "stream did not contain valid UTF-8" := by
    simp [Directory.readToString, Directory.tear, hbytes, hnone]
  rw [replayTranscriptJournal, hread]

/-- **Torn journals**: the replay of a journal that was cut off after `k` bytes returns the
segments of the complete lines exactly if the cut is between two characters. -/
theorem replaysCompleteLines_iff (hserde : serde.ReadsJson) (order : IterationOrder)
    (hkeeps : ∀ segment ∈ segments, serde.Keeps segment)
    (hnew : folder transcriptsJournalFilename = none)
    (happend : appendAll serde folder segments = (.ok (), full))
    (hbytes : full transcriptsJournalFilename = some bytes) (hk : k ≤ bytes.length) :
    ReplaysCompleteLines serde order segments k (full.tear transcriptsJournalFilename k) ↔
      Utf8.IsCharBoundary bytes k := by
  obtain rfl := bytes_eq hkeeps hnew happend hbytes
  refine ⟨?_, replaysCompleteLines_of_isCharBoundary hserde order hkeeps hbytes hk⟩
  rintro ⟨result, hresult, -⟩
  by_contra hcut
  rw [replay_eq_error_of_not_isCharBoundary order hbytes hk hcut] at hresult
  cases hresult

end Torn

/-! ## A journal with one segment -/

/-- A segment whose text is one accented letter. -/
def accented : TranscriptSegment :=
  ⟨"a", "é", none, none, none, none, none, none, none, none, none, none⟩

/-- Its members as JSON. -/
def accentedMembers : List Json.Member :=
  [⟨[], ['"', 'i', 'd', '"'], [], ['"', 'a', '"']⟩,
    ⟨[], ['"', 't', 'e', 'x', 't', '"'], [], ['"', 'é', '"']⟩]

/-- A codec on that segment alone. -/
def accentedSerde : Serde where
  toString segment :=
    if segment.text = "é" then .ok (Json.objectText [] accentedMembers)
    else .error "not supported"
  fromStr text :=
    if text = Json.objectText [] accentedMembers then .ok accented
    else .error "expected value at line 1 column 1"
  float64 x := if x.isNaN then none else some x
  float32 := some

theorem isObject_accented : Json.IsObject (Json.objectText [] accentedMembers) := by
  have hname : ∀ m ∈ accentedMembers, Json.IsString m.name := by
    simp only [accentedMembers, List.forall_mem_cons, List.not_mem_nil, false_implies,
      implies_true, and_true]
    exact ⟨Json.isString_of_all ['i', 'd'] (by decide),
      Json.isString_of_all ['t', 'e', 'x', 't'] (by decide)⟩
  have hvalue : ∀ m ∈ accentedMembers, Json.IsJson m.value := by
    simp only [accentedMembers, List.forall_mem_cons, List.not_mem_nil, false_implies,
      implies_true, and_true]
    exact ⟨.string (Json.isString_of_all ['a'] (by decide)),
      .string (Json.isString_of_all ['é'] (by decide))⟩
  exact .intro (by simp) (by simp [accentedMembers]) hname hvalue

theorem accentedSerde_readsJson : accentedSerde.ReadsJson where
  isJson {text segment} h := by
    rcases eq_or_ne text (Json.objectText [] accentedMembers) with rfl | hne
    · exact isObject_accented.isJson
    · simp [accentedSerde, hne] at h
  isNaN_float64 {x y} h := by
    simp only [accentedSerde] at h
    split at h
    · cases h
    · next hx => exact Option.some.inj h ▸ Bool.eq_false_iff.mpr hx

theorem accentedSerde_keeps : accentedSerde.Keeps accented where
  toString_eq := rfl
  isObject := isObject_accented
  printable c hc := by
    have hall : (accentedSerde.line accented).all (fun c => ' ' ≤ c) = true := by decide
    exact of_decide_eq_true (List.all_eq_true.mp hall c hc)
  fromStr_eq := by simp [accentedSerde, Serde.line, Serde.reread, accented]

/-- The order of insertion. -/
def insertionOrder : IterationOrder := ⟨id, fun _ => .refl _⟩

/-- A folder in which the segment was journaled twice. -/
def accentedFolder : Directory := (appendAll accentedSerde .empty [accented, accented]).2

/-- The journal in it. -/
def accentedBytes : List UInt8 := Utf8.encode (journalText accentedSerde [accented, accented])

theorem forall_keeps : ∀ segment ∈ [accented, accented], accentedSerde.Keeps segment := by
  simpa using accentedSerde_keeps

theorem accentedFolder_eq : accentedFolder transcriptsJournalFilename = some accentedBytes := by
  rw [accentedFolder, appendAll_eq forall_keeps (by simp)]
  simp [Directory.empty, accentedBytes]

/-- A cut in front of the letter leaves the first line to be replayed. -/
theorem replaysCompleteLines_accented : ReplaysCompleteLines accentedSerde insertionOrder
    [accented, accented] 41 (accentedFolder.tear transcriptsJournalFilename 41) :=
  (replaysCompleteLines_iff accentedSerde_readsJson insertionOrder forall_keeps
    (rfl : Directory.empty transcriptsJournalFilename = none) rfl accentedFolder_eq
    (by decide)).mpr (by decide)

/-- A cut between its two bytes loses both lines. -/
theorem not_replaysCompleteLines_accented : ¬ReplaysCompleteLines accentedSerde insertionOrder
    [accented, accented] 42 (accentedFolder.tear transcriptsJournalFilename 42) := by
  have herror := replay_eq_error_of_not_isCharBoundary (k := 42) insertionOrder accentedFolder_eq
    (by decide) (by decide)
  rintro ⟨result, hresult, -⟩
  rw [herror] at hresult
  cases hresult

end TranscriptJournal

end MeetilyLocal
