import Mathlib.Data.List.Pairwise
import MeetilyLocal.Audio.TranscriptJournalReplay
import MeetilyLocal.Library.OrderBy

/-!
# The two views of a running transcript

While a recording runs, each segment passed to `RecordingSaver::add_transcript_segment` goes to two
places: into the list in memory, which a normal stop saves, and to the journal, which a crash
recovery replays. Both keep one version of each segment, but they tell segments apart differently:
the list compares the sequence numbers, so that all segments without one count as the same segment;
the replay falls back to the id for these, "so they never spuriously collide with each other".

The views agree (`ViewsAgree`) exactly if the segments without a sequence number share one id, what
is kept survives the trip through JSON, and no two kept segments tie in the order they are sorted by
(`viewsAgree_iff`).
-/

namespace MeetilyLocal

namespace RecordingSaver

/-- Add or update a segment: the first one in the list with the same `sequence_id` is replaced. -/
def addTranscriptSegment (segment : TranscriptSegment) :
    List TranscriptSegment → List TranscriptSegment
  | [] => [segment]
  | existing :: transcriptSegments =>
    if existing.sequenceId = segment.sequenceId then segment :: transcriptSegments
    else existing :: addTranscriptSegment segment transcriptSegments

/-- The list in memory after the segments were added one after the other. -/
def transcriptSegments (segments : List TranscriptSegment) : List TranscriptSegment :=
  segments.foldl (fun list segment => addTranscriptSegment segment list) []

/-- No two segments of the list have the same `sequence_id`. -/
def Distinct (list : List TranscriptSegment) : Prop :=
  list.Pairwise fun a b => a.sequenceId ≠ b.sequenceId

theorem mem_addTranscriptSegment {segment a : TranscriptSegment} {list : List TranscriptSegment}
    (h : a ∈ addTranscriptSegment segment list) : a = segment ∨ a ∈ list := by
  induction list with
  | nil => exact .inl (List.mem_singleton.mp h)
  | cons existing list ih =>
    rw [addTranscriptSegment] at h
    split at h
    · exact (List.mem_cons.mp h).imp_right (List.mem_cons_of_mem _)
    · rcases List.mem_cons.mp h with rfl | hmem
      · exact .inr List.mem_cons_self
      · exact (ih hmem).imp_right (List.mem_cons_of_mem _)

theorem distinct_addTranscriptSegment {list : List TranscriptSegment} (h : Distinct list)
    (segment : TranscriptSegment) : Distinct (addTranscriptSegment segment list) := by
  induction list with
  | nil => exact List.pairwise_singleton _ _
  | cons existing list ih =>
    obtain ⟨hexisting, hlist⟩ := List.pairwise_cons.mp h
    rw [addTranscriptSegment]
    split
    · next heq => exact List.pairwise_cons.mpr ⟨fun a ha => heq ▸ hexisting a ha, hlist⟩
    · next hne =>
      refine List.pairwise_cons.mpr ⟨fun a ha => ?_, ih hlist⟩
      rcases mem_addTranscriptSegment ha with rfl | hmem
      · exact hne
      · exact hexisting a hmem

/-- Adding a segment drops the one it replaces. -/
theorem perm_addTranscriptSegment {list : List TranscriptSegment} (h : Distinct list)
    (segment : TranscriptSegment) : (addTranscriptSegment segment list).Perm
      (list.filter (fun a => a.sequenceId ≠ segment.sequenceId) ++ [segment]) := by
  induction list with
  | nil => exact .refl _
  | cons existing list ih =>
    obtain ⟨hexisting, hlist⟩ := List.pairwise_cons.mp h
    rw [addTranscriptSegment]
    split
    · next heq =>
      have hkept : list.filter (fun a => a.sequenceId ≠ segment.sequenceId) = list :=
        List.filter_eq_self.mpr fun a ha => decide_eq_true (heq ▸ (hexisting a ha).symm)
      rw [List.filter_cons_of_neg (by simp [heq]), hkept]
      exact (List.perm_append_singleton _ _).symm
    · next hne =>
      rw [List.filter_cons_of_pos (by simp [hne])]
      exact (ih hlist).cons existing

theorem transcriptSegments_concat (segments : List TranscriptSegment)
    (segment : TranscriptSegment) : transcriptSegments (segments ++ [segment]) =
      addTranscriptSegment segment (transcriptSegments segments) := by
  simp [transcriptSegments]

theorem distinct_transcriptSegments (segments : List TranscriptSegment) :
    Distinct (transcriptSegments segments) := by
  induction segments using List.reverseRecOn with
  | nil => exact List.Pairwise.nil
  | append_singleton segments segment ih =>
    rw [transcriptSegments_concat]
    exact distinct_addTranscriptSegment ih segment

end RecordingSaver

namespace TranscriptJournal

open RecordingSaver

/-! ## What the replay keeps -/

/-- The last write of a longer list: it takes the place of an earlier version of its segment. -/
theorem lastWrites_concat (segments : List TranscriptSegment) (segment : TranscriptSegment) :
    lastWrites (segments ++ [segment]) =
      (lastWrites segments).filter (fun a => ¬SameKey a segment) ++ [segment] := by
  rw [← map_snd_foldl_insertSegment, List.foldl_append, List.foldl_cons, List.foldl_nil,
    foldl_insertSegment, insertSegment, insertByKey, List.map_append, List.filter_nil,
    List.nil_append, List.filter_map, List.map_map]
  simp [Function.comp_def, ← journalReplayKey_eq_iff, bne, beq_eq_decide]

theorem exists_mem_lastWrites {segments : List TranscriptSegment} {segment : TranscriptSegment}
    (h : segment ∈ segments) : ∃ kept ∈ lastWrites segments, SameKey segment kept := by
  induction segments using List.reverseRecOn with
  | nil => cases h
  | append_singleton segments last ih =>
    rw [lastWrites_concat]
    by_cases hlast : SameKey segment last
    · exact ⟨last, by simp, hlast⟩
    · rcases List.mem_append.mp h with hmem | hmem
      · obtain ⟨kept, hkept, hsame⟩ := ih hmem
        have hstays : ¬SameKey kept last := by
          rw [← journalReplayKey_eq_iff] at hlast hsame ⊢
          rwa [← hsame]
        exact ⟨kept, by simp [hkept, hstays], hsame⟩
      · obtain rfl := List.mem_singleton.mp hmem
        exact absurd ⟨rfl, fun _ => rfl⟩ hlast

/-- One version of each segment is kept. -/
theorem pairwise_lastWrites (segments : List TranscriptSegment) :
    (lastWrites segments).Pairwise fun a b => ¬SameKey a b := by
  induction segments using List.reverseRecOn with
  | nil => exact List.Pairwise.nil
  | append_singleton segments last ih =>
    rw [lastWrites_concat, List.pairwise_append]
    refine ⟨ih.filter _, List.pairwise_singleton _ _, fun a ha b hb => ?_⟩
    obtain rfl := List.mem_singleton.mp hb
    simpa using (List.mem_filter.mp ha).2

/-- Two kept versions of one segment are one. -/
theorem eq_of_sameKey {segments : List TranscriptSegment} {a b : TranscriptSegment}
    (ha : a ∈ lastWrites segments) (hb : b ∈ lastWrites segments) (h : SameKey a b) : a = b := by
  by_contra hne
  have hsymm : Std.Symm fun a b => ¬SameKey a b :=
    ⟨fun a b hab hba => hab ((journalReplayKey_eq_iff _ _).mp
      ((journalReplayKey_eq_iff _ _).mpr hba).symm)⟩
  exact (pairwise_lastWrites segments).forall ha hb hne h

theorem lastWrites_map_reread (serde : Serde) (segments : List TranscriptSegment) :
    lastWrites (segments.map serde.reread) = (lastWrites segments).map serde.reread := by
  induction segments using List.reverseRecOn with
  | nil => rfl
  | append_singleton segments last ih =>
    rw [List.map_append, List.map_singleton, lastWrites_concat, lastWrites_concat, ih,
      List.filter_map, List.map_append, List.map_singleton]
    rfl

/-! ## The whole journal -/

theorem completeSegments_length (serde : Serde) (segments : List TranscriptSegment) :
    completeSegments serde segments (Utf8.encode (journalText serde segments)).length =
      segments := by
  induction segments with
  | nil => rfl
  | cons segment segments ih =>
    have hsize : (Utf8.encode (journalText serde (segment :: segments))).length =
        (Utf8.encode (serde.line segment)).length +
          ((Utf8.encode (journalText serde segments)).length + 1) := by
      rw [journalText_cons, Utf8.encode_append, List.length_append]
      rfl
    rw [hsize, completeSegments_cons, ih]

/-- The replay of a whole journal: the kept segments as they read back, sorted. -/
theorem replayTranscriptJournal_eq {serde : Serde} (hserde : serde.ReadsJson)
    (order : IterationOrder) {segments : List TranscriptSegment} {full : Directory}
    (hkeeps : ∀ segment ∈ segments, serde.Keeps segment)
    (hbytes : full transcriptsJournalFilename = some (Utf8.encode (journalText serde segments))) :
    replayTranscriptJournal serde order full = .ok (sortSegmentsChronologically
      (order.arrange ((lastWrites segments).map serde.reread))) := by
  have hread : full.readToString transcriptsJournalFilename =
      .ok (journalText serde segments) := by
    simp [Directory.readToString, hbytes, Utf8.decode_encode]
  have hfold := foldl_replayLine_take hserde hkeeps (journalText serde segments).length []
  rw [List.take_length, completeSegments_length] at hfold
  rw [replayTranscriptJournal, hread]
  simp only [hfold, map_snd_foldl_insertSegment, lastWrites_map_reread]

/-! ## Agreement -/

/-- If there is a journal, its replay is the sorted list in memory, whatever the order of the hash
map. -/
def ViewsAgree (serde : Serde) (segments : List TranscriptSegment) (full : Directory) : Prop :=
  full transcriptsJournalFilename ≠ none → ∀ order, replayTranscriptJournal serde order full =
    .ok (sortSegmentsChronologically (transcriptSegments segments))

/-- The condition under which the views agree. -/
structure Recoverable (serde : Serde) (segments : List TranscriptSegment) : Prop where
  /-- the segments without a sequence number share one id -/
  sharedId : ∀ a ∈ segments, ∀ b ∈ segments,
    a.sequenceId = none → b.sequenceId = none → a.id = b.id
  /-- what is kept reads back as itself -/
  survives : ∀ kept ∈ lastWrites segments, serde.reread kept = kept
  /-- no two kept segments tie -/
  untied : (lastWrites segments).Pairwise fun a b => compareSegments a b ≠ .eq

/-- With a shared id, the list in memory holds what the replay keeps. -/
theorem perm_lastWrites {segments : List TranscriptSegment} (h : ∀ a ∈ segments, ∀ b ∈ segments,
    a.sequenceId = none → b.sequenceId = none → a.id = b.id) :
    (transcriptSegments segments).Perm (lastWrites segments) := by
  induction segments using List.reverseRecOn with
  | nil => exact .refl _
  | append_singleton segments last ih =>
    have hkept : ∀ a ∈ lastWrites segments,
        decide (a.sequenceId ≠ last.sequenceId) = decide (¬SameKey a last) := by
      intro a ha
      have hmem := mem_of_mem_lastWrites ha
      refine decide_eq_decide.mpr (not_congr ⟨fun heq => ⟨heq, fun hnone => ?_⟩, And.left⟩)
      exact h a (List.mem_append_left _ hmem) last (by simp) hnone (heq ▸ hnone)
    have hih := ih fun a ha b hb => h a (List.mem_append_left _ ha) b (List.mem_append_left _ hb)
    rw [transcriptSegments_concat, lastWrites_concat, ← List.filter_congr hkept]
    exact (perm_addTranscriptSegment (distinct_transcriptSegments segments) last).trans
      ((hih.filter _).append_right _)

section Agreement

variable {serde : Serde} {full : Directory} {segments : List TranscriptSegment}

/-- When the views agree, the list in memory holds what the replay keeps as it reads back. -/
theorem perm_of_replay (order : IterationOrder)
    (h : sortSegmentsChronologically (order.arrange ((lastWrites segments).map serde.reread)) =
      sortSegmentsChronologically (transcriptSegments segments)) :
    ((lastWrites segments).map serde.reread).Perm (transcriptSegments segments) := by
  have hreplay := (List.mergeSort_perm (order.arrange ((lastWrites segments).map serde.reread))
    chronological).trans (order.perm _)
  have hmemory : (sortSegmentsChronologically (transcriptSegments segments)).Perm
      (transcriptSegments segments) := List.mergeSort_perm _ _
  rw [← h] at hmemory
  exact hreplay.symm.trans hmemory

/-- Two segments without a sequence number are one in memory, and by their ids two in the
replay. -/
theorem sharedId_of_perm
    (h : ((lastWrites segments).map serde.reread).Perm (transcriptSegments segments)) :
    ∀ a ∈ segments, ∀ b ∈ segments, a.sequenceId = none → b.sequenceId = none → a.id = b.id := by
  intro a ha b hb hanone hbnone
  obtain ⟨kept, hkept, hseq, hid⟩ := exists_mem_lastWrites ha
  obtain ⟨kept', hkept', hseq', hid'⟩ := exists_mem_lastWrites hb
  have hmem := h.mem_iff.mp (List.mem_map_of_mem (f := serde.reread) hkept)
  have hmem' := h.mem_iff.mp (List.mem_map_of_mem (f := serde.reread) hkept')
  have hsymm : Std.Symm fun a b : TranscriptSegment => a.sequenceId ≠ b.sequenceId :=
    ⟨fun _ _ hne => hne.symm⟩
  have heq : serde.reread kept = serde.reread kept' := by
    by_contra hne
    refine (distinct_transcriptSegments segments).forall hmem hmem' hne ?_
    exact hseq.symm.trans (hanone.trans (hbnone.symm.trans hseq'))
  have hsameId : (serde.reread kept).id = (serde.reread kept').id :=
    congrArg TranscriptSegment.id heq
  calc a.id
    _ = kept.id := hid hanone
    _ = kept'.id := hsameId
    _ = b.id := (hid' hbnone).symm

/-- If what is kept reads back as what is kept, each kept segment reads back as itself. -/
theorem reread_eq_of_perm (h : ((lastWrites segments).map serde.reread).Perm (lastWrites segments))
    {kept : TranscriptSegment} (hkept : kept ∈ lastWrites segments) : serde.reread kept = kept :=
  eq_of_sameKey (h.mem_iff.mp (List.mem_map_of_mem hkept)) hkept ⟨rfl, fun _ => rfl⟩

theorem map_reread_eq (h : ∀ kept ∈ lastWrites segments, serde.reread kept = kept) :
    (lastWrites segments).map serde.reread = lastWrites segments :=
  (List.map_congr_left h).trans (List.map_id' _)

/-- What reads back as itself has a number as its start time. -/
theorem isNaN_sortTime_of_reread (hserde : serde.ReadsJson)
    (h : ∀ kept ∈ lastWrites segments, serde.reread kept = kept) :
    ∀ kept ∈ lastWrites segments, (sortTime kept).isNaN = false :=
  fun kept hkept => h kept hkept ▸ isNaN_sortTime_reread hserde kept

/-- The sort leaves two segments that tie in the order they came in. -/
theorem sublist_sortSegmentsChronologically {list : List TranscriptSegment}
    (hnum : ∀ segment ∈ list, (sortTime segment).isNaN = false) {a b : TranscriptSegment}
    (hsub : [a, b].Sublist list) (htie : compareSegments a b = .eq) :
    [a, b].Sublist (sortSegmentsChronologically list) := by
  have ha := hnum a (hsub.subset (by simp))
  have hb := hnum b (hsub.subset (by simp))
  rw [compareSegments_eq ha hb, compare_eq_iff_eq] at htie
  rw [sortSegmentsChronologically_eq hnum]
  refine List.sublist_mergeSort rankLE_trans rankLE_total ?_ hsub
  exact List.pairwise_pair.mpr (decide_eq_true htie.le)

/-- The hash map may give out two kept segments in either order, so they must not tie. -/
theorem untied_of_sort (hnum : ∀ kept ∈ lastWrites segments, (sortTime kept).isNaN = false)
    {list : List TranscriptSegment} (h : ∀ order : IterationOrder,
      sortSegmentsChronologically (order.arrange (lastWrites segments)) = list) :
    (lastWrites segments).Pairwise fun a b => compareSegments a b ≠ .eq := by
  rw [List.pairwise_iff_forall_sublist]
  intro a b hsub htie
  have ha := hnum a (hsub.subset (by simp))
  have hb := hnum b (hsub.subset (by simp))
  have htie' : compareSegments b a = .eq := by
    rw [compareSegments_eq hb ha, compare_eq_iff_eq]
    rw [compareSegments_eq ha hb, compare_eq_iff_eq] at htie
    exact htie.symm
  have hforward := sublist_sortSegmentsChronologically hnum hsub htie
  have hreverse : [b, a].Sublist (lastWrites segments).reverse := by
    simpa using List.reverse_sublist.mpr hsub
  have hbackward := sublist_sortSegmentsChronologically
    (fun kept hkept => hnum kept (List.mem_reverse.mp hkept)) hreverse htie'
  have hinsertion := h insertionOrder
  have hreversed := h ⟨List.reverse, List.reverse_perm⟩
  have hnodup : list.Nodup := by
    have hperm : list.Perm (lastWrites segments) := hinsertion ▸ List.mergeSort_perm _ _
    refine hperm.nodup_iff.mpr ((pairwise_lastWrites segments).imp ?_)
    rintro a b hab rfl
    exact hab ⟨rfl, fun _ => rfl⟩
  exact not_pair_sublist hnodup (hinsertion ▸ hforward) (hreversed ▸ hbackward)

/-- The kept segments survive and do not tie: they are sorted the same whatever the order. -/
theorem sort_eq_of_perm (hnum : ∀ kept ∈ lastWrites segments, (sortTime kept).isNaN = false)
    (huntied : (lastWrites segments).Pairwise fun a b => compareSegments a b ≠ .eq)
    {list list' : List TranscriptSegment} (h : list.Perm (lastWrites segments))
    (h' : list'.Perm (lastWrites segments)) :
    sortSegmentsChronologically list = sortSegmentsChronologically list' := by
  have hrank : (lastWrites segments).Pairwise fun a b => sortRank a ≠ sortRank b := by
    refine huntied.imp_of_mem fun {a b} ha hb hne heq => hne ?_
    rwa [compareSegments_eq (hnum a ha) (hnum b hb), compare_eq_iff_eq]
  have hsymm : Std.Symm fun a b : TranscriptSegment => sortRank a ≠ sortRank b :=
    ⟨fun _ _ hne => hne.symm⟩
  have hsort := List.mergeSort_perm list rankLE
  have hsort' := List.mergeSort_perm list' rankLE
  rw [sortSegmentsChronologically_eq fun a ha => hnum a (h.mem_iff.mp ha),
    sortSegmentsChronologically_eq fun a ha => hnum a (h'.mem_iff.mp ha)]
  refine List.Perm.eq_of_pairwise ?_ (List.pairwise_mergeSort rankLE_trans rankLE_total list)
    (List.pairwise_mergeSort rankLE_trans rankLE_total list')
    ((hsort.trans h).trans (hsort'.trans h').symm)
  intro a b ha hb hab hba
  by_contra hne
  exact hrank.forall ((hsort.trans h).mem_iff.mp ha) ((hsort'.trans h').mem_iff.mp hb) hne
    ((of_decide_eq_true hab).antisymm (of_decide_eq_true hba))

/-- **Two views of one transcript**: they agree exactly if the segments without a sequence number
share one id, what is kept reads back as itself and no two kept segments tie. -/
theorem viewsAgree_iff {folder : Directory} (hserde : serde.ReadsJson)
    (hkeeps : ∀ segment ∈ segments, serde.Keeps segment)
    (hnew : folder transcriptsJournalFilename = none)
    (happend : appendAll serde folder segments = (.ok (), full)) :
    ViewsAgree serde segments full ↔ Recoverable serde segments := by
  rcases eq_or_ne segments [] with rfl | hne
  · obtain ⟨-, rfl⟩ := Prod.mk.inj happend
    exact ⟨fun _ => ⟨by simp, by simp [lastWrites], by simp [lastWrites]⟩,
      fun _ hexists => absurd hnew hexists⟩
  obtain ⟨-, hfull⟩ := Prod.mk.inj ((appendAll_eq hkeeps hne folder).symm.trans happend)
  have hbytes : full transcriptsJournalFilename =
      some (Utf8.encode (journalText serde segments)) := by
    simp [← hfull, hnew]
  have hexists : full transcriptsJournalFilename ≠ none := by simp [hbytes]
  have hreplay := fun order => replayTranscriptJournal_eq hserde order hkeeps hbytes
  constructor
  · intro hagree
    have hsort : ∀ order : IterationOrder, sortSegmentsChronologically
        (order.arrange ((lastWrites segments).map serde.reread)) =
        sortSegmentsChronologically (transcriptSegments segments) := fun order =>
      Except.ok.inj ((hreplay order).symm.trans (hagree hexists order))
    have hperm := perm_of_replay insertionOrder (hsort insertionOrder)
    have hshared := sharedId_of_perm hperm
    have hsurvives : ∀ kept ∈ lastWrites segments, serde.reread kept = kept :=
      fun kept hkept => reread_eq_of_perm (hperm.trans (perm_lastWrites hshared)) hkept
    exact ⟨hshared, hsurvives,
      untied_of_sort (isNaN_sortTime_of_reread hserde hsurvives) (map_reread_eq hsurvives ▸ hsort)⟩
  · rintro ⟨hshared, hsurvives, huntied⟩ - order
    rw [hreplay, map_reread_eq hsurvives]
    exact congrArg Except.ok (sort_eq_of_perm (isNaN_sortTime_of_reread hserde hsurvives) huntied
      (order.perm _) (perm_lastWrites hshared))

end Agreement

/-! ## Segments without a sequence number -/

/-- The segment that was journaled twice is one in both views. -/
theorem viewsAgree_accented :
    ViewsAgree accentedSerde [accented, accented] accentedFolder :=
  (viewsAgree_iff accentedSerde_readsJson forall_keeps
    (rfl : Directory.empty transcriptsJournalFilename = none) rfl).mpr
    ⟨by simp, fun kept hkept => by simp [lastWrites, SameKey] at hkept; subst hkept; rfl,
      by simp [lastWrites, SameKey]⟩

/-- A segment without a sequence number, as older data has. -/
def unnumbered (id : Char) : TranscriptSegment :=
  ⟨String.ofList [id], "x", none, none, none, none, none, none, none, none, none, none⟩

/-- Its members as JSON. -/
def unnumberedMembers (id : Char) : List Json.Member :=
  [⟨[], ['"', 'i', 'd', '"'], [], ['"', id, '"']⟩,
    ⟨[], ['"', 't', 'e', 'x', 't', '"'], [], ['"', 'x', '"']⟩]

/-- A codec on the segments `a` and `b`. -/
def unnumberedSerde : Serde where
  toString segment :=
    if segment.id = "a" then .ok (Json.objectText [] (unnumberedMembers 'a'))
    else .ok (Json.objectText [] (unnumberedMembers 'b'))
  fromStr text :=
    if text = Json.objectText [] (unnumberedMembers 'a') then .ok (unnumbered 'a')
    else if text = Json.objectText [] (unnumberedMembers 'b') then .ok (unnumbered 'b')
    else .error "expected value at line 1 column 1"
  float64 x := if x.isNaN then none else some x
  float32 := some

theorem isObject_unnumbered {id : Char} (hid : Json.IsString ['"', id, '"']) :
    Json.IsObject (Json.objectText [] (unnumberedMembers id)) := by
  have hname : ∀ m ∈ unnumberedMembers id, Json.IsString m.name := by
    simp only [unnumberedMembers, List.forall_mem_cons, List.not_mem_nil, false_implies,
      implies_true, and_true]
    exact ⟨Json.isString_of_all ['i', 'd'] (by decide),
      Json.isString_of_all ['t', 'e', 'x', 't'] (by decide)⟩
  have hvalue : ∀ m ∈ unnumberedMembers id, Json.IsJson m.value := by
    simp only [unnumberedMembers, List.forall_mem_cons, List.not_mem_nil, false_implies,
      implies_true, and_true]
    exact ⟨.string hid, .string (Json.isString_of_all ['x'] (by decide))⟩
  exact .intro (by simp) (by simp [unnumberedMembers]) hname hvalue

theorem isString_a : Json.IsString ['"', 'a', '"'] := Json.isString_of_all ['a'] (by decide)

theorem isString_b : Json.IsString ['"', 'b', '"'] := Json.isString_of_all ['b'] (by decide)

theorem unnumberedSerde_readsJson : unnumberedSerde.ReadsJson where
  isJson {text segment} h := by
    simp only [unnumberedSerde] at h
    split at h
    · next ha => exact ha ▸ (isObject_unnumbered isString_a).isJson
    · split at h
      · next hb => exact hb ▸ (isObject_unnumbered isString_b).isJson
      · cases h
  isNaN_float64 {x y} h := by
    simp only [unnumberedSerde] at h
    split at h
    · cases h
    · next hx => exact Option.some.inj h ▸ Bool.eq_false_iff.mpr hx

/-- The codec keeps a segment whose text it reads back. -/
theorem unnumberedSerde_keeps {id : Char} (hid : Json.IsString ['"', id, '"'])
    (hwrite : unnumberedSerde.toString (unnumbered id) =
      .ok (Json.objectText [] (unnumberedMembers id)))
    (hline : (unnumberedSerde.line (unnumbered id)).all (fun c => ' ' ≤ c) = true)
    (hread : unnumberedSerde.fromStr (Json.objectText [] (unnumberedMembers id)) =
      .ok (unnumbered id)) : unnumberedSerde.Keeps (unnumbered id) := by
  have htext : unnumberedSerde.line (unnumbered id) = Json.objectText [] (unnumberedMembers id) := by
    rw [Serde.line, hwrite]
  refine ⟨hwrite.trans (congrArg Except.ok htext.symm), ?_, fun c hc => ?_, ?_⟩
  · rw [htext]
    exact isObject_unnumbered hid
  · exact of_decide_eq_true (List.all_eq_true.mp hline c hc)
  · rw [htext]
    exact hread

theorem unnumberedSerde_keeps_both :
    ∀ segment ∈ [unnumbered 'a', unnumbered 'b'], unnumberedSerde.Keeps segment := by
  simpa using ⟨unnumberedSerde_keeps isString_a rfl (by decide) rfl,
    unnumberedSerde_keeps isString_b rfl (by decide) rfl⟩

/-- The list in memory has the second segment only, the replay has both. -/
theorem not_viewsAgree_unnumbered : ¬ViewsAgree unnumberedSerde [unnumbered 'a', unnumbered 'b']
    (appendAll unnumberedSerde .empty [unnumbered 'a', unnumbered 'b']).2 := by
  have hkeeps := unnumberedSerde_keeps_both
  have hbytes : (appendAll unnumberedSerde .empty [unnumbered 'a', unnumbered 'b']).2
      transcriptsJournalFilename =
      some (Utf8.encode (journalText unnumberedSerde [unnumbered 'a', unnumbered 'b'])) := by
    simp [appendAll_eq hkeeps, Directory.empty]
  intro hagree
  have hreplay :=
    replayTranscriptJournal_eq unnumberedSerde_readsJson insertionOrder hkeeps hbytes
  have hperm := perm_of_replay insertionOrder
    (Except.ok.inj (hreplay.symm.trans (hagree (by simp [hbytes]) insertionOrder)))
  have hid := sharedId_of_perm hperm (unnumbered 'a') (by simp) (unnumbered 'b') (by simp) rfl rfl
  exact absurd hid (by decide)

end TranscriptJournal

end MeetilyLocal
