import MeetilyLocal.Library.FloatOrder
import MeetilyLocal.Library.SortedInsertion
import Mathlib.Data.List.Induction

/-!
# The rows of the live transcript

`upsert_row` of the recording page (`views/recording/logic.rs`) keeps the list of transcript rows,
and says how it changed the list, so that the scroller next to it (`views/recording/view.rs`) can
make the same change by splices.

After any sequence of upserts with finite start times the list is sorted, holds exactly the last row
of each sequence number, and a copy of it that follows the changes is the same list
(`transcriptList_upsertAll`).
-/

namespace MeetilyLocal.RecordingPage

open Float64

/-! ## The list -/

/-- A row of the live transcript. -/
structure TranscriptRow : Type where
  /-- which segment of the recording it is -/
  sequenceId : UInt64
  /-- seconds from the start of the recording -/
  audioStartTime : Float
  /-- who speaks -/
  speaker : String
  /-- what was said -/
  text : String
  /-- `mic` or `system` -/
  source : String

/-- `compare_rows`: tuples of numbers compare by the first component that differs. -/
def compareRows (a b : TranscriptRow) : Ordering :=
  let cmp :=
    match partialCmp a.audioStartTime b.audioStartTime with
    | some .eq => some (compare a.sequenceId b.sequenceId)
    | other => other
  cmp.getD .eq

/-- `==` of two `order_key`s -/
def orderKeyEq (a b : TranscriptRow) : Bool :=
  a.audioStartTime == b.audioStartTime && a.sequenceId == b.sequenceId

/-- How `upsert_row` changed the list. -/
inductive RowChange : Type where
  /-- a new row at the end of the list -/
  | appended
  /-- a new row in the middle of the list -/
  | insertedAt (idx : ℕ)
  /-- a row was updated in its place -/
  | replacedAt (idx : ℕ)
  /-- a row moved since its order key changed -/
  | repositioned (removedAt insertedAt : ℕ)
  deriving DecidableEq

/-- Where `row` is inserted. -/
def insertAt (rows : List TranscriptRow) (row : TranscriptRow) : ℕ :=
  partitionPoint (fun r => compareRows r row != .gt) rows

def upsertRow (rows : List TranscriptRow) (row : TranscriptRow) : List TranscriptRow × RowChange :=
  match rows.findIdx? (·.sequenceId == row.sequenceId) with
  | some idx =>
    if (rows[idx]?).any (orderKeyEq · row) then (rows.set idx row, .replacedAt idx)
    else
      let rows := rows.eraseIdx idx
      (rows.insertIdx (insertAt rows row) row, .repositioned idx (insertAt rows row))
  | none =>
    let inserted := rows.insertIdx (insertAt rows row) row
    (inserted, if insertAt rows row = inserted.length - 1 then .appended
      else .insertedAt (insertAt rows row))

/-- What the scroller does with a change. -/
def RowChange.apply (change : RowChange) (row : TranscriptRow) (rows : List TranscriptRow) :
    Option (List TranscriptRow) :=
  match change with
  | appended => some (rows ++ [row])
  | insertedAt idx => splice idx idx [row] rows
  | replacedAt idx => splice idx (idx + 1) [row] rows
  | repositioned removed inserted =>
    (splice removed (removed + 1) [] rows).bind (splice inserted inserted [row])

/-! ## The order of rows -/

/-- Where a row stands among the others. -/
def rowRank (row : TranscriptRow) : Rank ×ₗ ℕ :=
  toLex (rank row.audioStartTime, row.sequenceId.toNat)

theorem compare_toNat (m n : UInt64) : compare m.toNat n.toNat = compare m n := by
  simp only [compare, compareOfLessAndEq, UInt64.lt_iff_toNat_lt, UInt64.toNat_inj]

section Order

variable {a b row : TranscriptRow}

theorem compareRows_eq (ha : a.audioStartTime.isNaN = false) (hb : b.audioStartTime.isNaN = false) :
    compareRows a b = compare (rowRank a) (rowRank b) := by
  rw [compareRows, partialCmp_eq ha hb, rowRank, rowRank, compare_toLex, compare_toNat]
  cases compare (rank a.audioStartTime) (rank b.audioStartTime) <;> rfl

theorem orderKeyEq_iff (ha : a.audioStartTime.isNaN = false)
    (hb : b.audioStartTime.isNaN = false) : orderKeyEq a b = true ↔ rowRank a = rowRank b := by
  rw [orderKeyEq, Bool.and_eq_true, beq_iff ha hb, beq_iff_eq, rowRank, rowRank, toLex_inj,
    Prod.mk_inj, UInt64.toNat_inj]

theorem sequenceId_eq_of_rowRank (h : rowRank a = rowRank b) : a.sequenceId = b.sequenceId :=
  UInt64.toNat_inj.mp (Prod.mk_inj.mp (toLex_inj.mp h)).2

end Order

/-! ## One upsert -/

/-- A list as the upserts keep it. -/
structure Listed (rows : List TranscriptRow) : Prop where
  /-- it is sorted -/
  sorted : SortedBy rowRank rows
  /-- no sequence number is there twice -/
  distinct : rows.Pairwise fun a b => a.sequenceId ≠ b.sequenceId
  /-- its rows can be compared -/
  comparable : ∀ r ∈ rows, r.audioStartTime.isNaN = false

/-- What an upsert of `row` can do to a list. -/
inductive Upserted (row : TranscriptRow) :
    List TranscriptRow → List TranscriptRow × RowChange → Prop
  /-- it is a new row and goes to the end -/
  | append (rows : List TranscriptRow) (hnew : ∀ r ∈ rows, r.sequenceId ≠ row.sequenceId)
      (hless : ∀ r ∈ rows, rowRank r < rowRank row) :
      Upserted row rows (rows ++ [row], .appended)
  /-- it is a new row and goes in front of others -/
  | insert (front : List TranscriptRow) (next : TranscriptRow) (back : List TranscriptRow)
      (hnew : ∀ r ∈ front ++ next :: back, r.sequenceId ≠ row.sequenceId)
      (hfront : ∀ r ∈ front, rowRank r < rowRank row)
      (hback : ∀ r ∈ next :: back, rowRank row < rowRank r) :
      Upserted row (front ++ next :: back)
        (front ++ row :: next :: back, .insertedAt front.length)
  /-- it stands where the old row stood -/
  | replace (front : List TranscriptRow) (old : TranscriptRow) (back : List TranscriptRow)
      (hsame : old.sequenceId = row.sequenceId) (hkey : rowRank row = rowRank old) :
      Upserted row (front ++ old :: back) (front ++ row :: back, .replacedAt front.length)
  /-- the old row goes, and the new one stands elsewhere -/
  | move (front : List TranscriptRow) (old : TranscriptRow) (back front' back' : List TranscriptRow)
      (hsame : old.sequenceId = row.sequenceId) (hrest : front ++ back = front' ++ back')
      (hfront : ∀ r ∈ front', rowRank r < rowRank row)
      (hback : ∀ r ∈ back', rowRank row < rowRank r) :
      Upserted row (front ++ old :: back)
        (front' ++ row :: back', .repositioned front.length front'.length)

section Step

variable {rows front back calls : List TranscriptRow} {row old : TranscriptRow}
  {result : List TranscriptRow × RowChange}

namespace Listed

theorem nil : Listed [] := ⟨.nil, .nil, by simp⟩

theorem erase (h : Listed (front ++ old :: back)) : Listed (front ++ back) where
  sorted := h.sorted.erase
  distinct := h.distinct.sublist (List.Sublist.append_left (List.sublist_cons_self old back) front)
  comparable r hr := h.comparable r (by simp only [List.mem_append, List.mem_cons] at *; tauto)

/-- The row that is searched for is the only one with its number. -/
theorem ne_of_mem_erase (h : Listed (front ++ old :: back)) :
    ∀ r ∈ front ++ back, r.sequenceId ≠ old.sequenceId := by
  obtain ⟨-, hback, hfront⟩ := List.pairwise_append.mp h.distinct
  intro r hr
  rcases List.mem_append.mp hr with hr | hr
  · exact hfront r hr old List.mem_cons_self
  · exact (List.rel_of_pairwise_cons hback hr).symm

theorem mem_and_ne (h : Listed (front ++ old :: back)) (r : TranscriptRow) :
    r ∈ front ++ old :: back ∧ r.sequenceId ≠ old.sequenceId ↔ r ∈ front ++ back := by
  have hne := h.ne_of_mem_erase r
  simp only [List.mem_append, List.mem_cons] at *
  constructor
  · rintro ⟨hr | rfl | hr, hid⟩
    · exact .inl hr
    · exact absurd rfl hid
    · exact .inr hr
  · intro hr
    exact ⟨by tauto, hne hr⟩

theorem insert (h : Listed (front ++ back)) (hrow : row.audioStartTime.isNaN = false)
    (hnew : ∀ r ∈ front ++ back, r.sequenceId ≠ row.sequenceId)
    (hfront : ∀ r ∈ front, rowRank r < rowRank row)
    (hback : ∀ r ∈ back, rowRank row < rowRank r) : Listed (front ++ row :: back) where
  sorted := h.sorted.insert hfront hback
  distinct := by
    obtain ⟨hf, hb, hfb⟩ := List.pairwise_append.mp h.distinct
    refine List.pairwise_append.mpr ⟨hf, List.pairwise_cons.mpr ⟨?_, hb⟩, ?_⟩
    · intro r hr
      exact (hnew r (List.mem_append_right front hr)).symm
    · intro r hr r' hr'
      rcases List.mem_cons.mp hr' with rfl | hr'
      · exact hnew r (List.mem_append_left back hr)
      · exact hfb r hr r' hr'
  comparable r hr := by
    rcases List.mem_append.mp hr with hr | hr
    · exact h.comparable r (List.mem_append_left back hr)
    rcases List.mem_cons.mp hr with rfl | hr
    · exact hrow
    · exact h.comparable r (List.mem_append_right front hr)

/-- Rows with a smaller rank stand in front of where a new row goes. -/
theorem exists_insertAt (h : Listed rows) (hrow : row.audioStartTime.isNaN = false)
    (hnew : ∀ r ∈ rows, r.sequenceId ≠ row.sequenceId) :
    ∃ front back, rows = front ++ back ∧ insertAt rows row = front.length ∧
      (∀ r ∈ front, rowRank r < rowRank row) ∧ ∀ r ∈ back, rowRank row < rowRank r := by
  obtain ⟨front, back, rfl, hfront, hback⟩ := h.sorted.exists_partition (rowRank row)
  refine ⟨front, back, rfl, partitionPoint_append ?_ ?_, ?_, hback⟩
  · intro r hr
    rw [compareRows_eq (h.comparable r (List.mem_append_left back hr)) hrow, bne_iff_ne, ne_eq,
      compare_gt_iff_gt]
    exact not_lt_of_ge (hfront r hr)
  · intro r hr
    rw [compareRows_eq (h.comparable r (List.mem_append_right front hr)) hrow,
      compare_gt_iff_gt.mpr (hback r hr)]
    rfl
  · intro r hr
    refine lt_of_le_of_ne (hfront r hr) ?_
    intro heq
    exact hnew r (List.mem_append_left back hr) (sequenceId_eq_of_rowRank heq)

end Listed

theorem upserted_upsertRow (h : Listed rows) (hrow : row.audioStartTime.isNaN = false) :
    Upserted row rows (upsertRow rows row) := by
  rw [upsertRow]
  split
  next idx hidx =>
    obtain ⟨front, old, back, rfl, rfl, hsame⟩ := exists_of_findIdx?_eq_some hidx
    have hsame : old.sequenceId = row.sequenceId := by simpa using hsame
    have hold := h.comparable old (by simp)
    have hget : (front ++ old :: back)[front.length]? = some old := by simp
    rw [hget, Option.any_some]
    split
    next hkey =>
      rw [set_append]
      exact .replace front old back hsame ((orderKeyEq_iff hold hrow).mp hkey).symm
    next =>
      rw [eraseIdx_append]
      obtain ⟨front', back', hrest, hat, hfront, hback⟩ :=
        h.erase.exists_insertAt hrow (hsame ▸ h.ne_of_mem_erase)
      simp only [hat]
      rw [hrest, insertIdx_append]
      exact .move front old back front' back' hsame hrest hfront hback
  next hidx =>
    have hnew : ∀ r ∈ rows, r.sequenceId ≠ row.sequenceId := by
      simpa using List.findIdx?_eq_none_iff.mp hidx
    obtain ⟨front, back, rfl, hat, hfront, hback⟩ := h.exists_insertAt hrow hnew
    simp only [hat]
    rw [insertIdx_append]
    cases back with
    | nil =>
      rw [List.append_nil, if_pos (by simp)]
      exact .append front (by simpa using hnew) hfront
    | cons next back =>
      rw [if_neg (by simp)]
      exact .insert front next back hnew hfront hback

namespace Upserted

theorem listed (h : Upserted row rows result) (hrows : Listed rows)
    (hrow : row.audioStartTime.isNaN = false) : Listed result.1 := by
  cases h with
  | append rows hnew hless =>
    apply Listed.insert (by simpa using hrows) hrow (by simpa using hnew) hless
    simp
  | insert front next back hnew hfront hback => exact hrows.insert hrow hnew hfront hback
  | replace front old back hsame hkey =>
    have hnew := hsame ▸ hrows.ne_of_mem_erase
    have hmiddle := hrows.sorted.lt_middle
    rw [← hkey] at hmiddle
    exact hrows.erase.insert hrow hnew hmiddle.1 hmiddle.2
  | move front old back front' back' hsame hrest hfront hback =>
    have hnew := hsame ▸ hrows.ne_of_mem_erase
    have hlisted := hrows.erase
    rw [hrest] at hnew hlisted
    exact hlisted.insert hrow hnew hfront hback

/-- The new row takes the place of the one with its number. -/
theorem mem_iff (h : Upserted row rows result) (hrows : Listed rows) (r : TranscriptRow) :
    r ∈ result.1 ↔ r = row ∨ r ∈ rows ∧ r.sequenceId ≠ row.sequenceId := by
  cases h with
  | append rows hnew =>
    rw [and_iff_left_of_imp (hnew r), List.mem_append, List.mem_singleton, or_comm]
  | insert front next back hnew =>
    rw [and_iff_left_of_imp (hnew r), List.perm_middle.mem_iff, List.mem_cons]
  | replace front old back hsame =>
    rw [List.perm_middle.mem_iff, List.mem_cons, ← hsame, hrows.mem_and_ne]
  | move front old back front' back' hsame hrest =>
    rw [List.perm_middle.mem_iff, List.mem_cons, ← hsame, hrows.mem_and_ne, hrest]

/-- The scroller follows. -/
theorem apply (h : Upserted row rows result) : result.2.apply row rows = some result.1 := by
  cases h with
  | append => rfl
  | insert front next back => exact splice_insert front (next :: back) row
  | replace front old back => exact splice_replace front back old row
  | move front old back front' back' _ hrest =>
    simp only [RowChange.apply, splice_erase, Option.bind_some]
    rw [hrest, splice_insert]

end Upserted

end Step

/-! ## Any sequence of upserts -/

/-- The list after these calls. -/
def upsertAll (calls : List TranscriptRow) : List TranscriptRow :=
  calls.foldl (fun rows row => (upsertRow rows row).1) []

/-- The last row that was given for a sequence number. -/
def lastRow (calls : List TranscriptRow) (sequenceId : UInt64) : Option TranscriptRow :=
  (calls.filter (·.sequenceId = sequenceId)).getLast?

/-- The list is what it should be after these calls. -/
structure TranscriptList (calls rows : List TranscriptRow) : Prop where
  /-- it is sorted by `compare_rows` -/
  sorted : rows.Pairwise fun a b => compareRows a b = .lt
  /-- each sequence number is there once -/
  distinct : rows.Pairwise fun a b => a.sequenceId ≠ b.sequenceId
  /-- with the last row that was given for it -/
  mem_iff : ∀ r, r ∈ rows ↔ lastRow calls r.sequenceId = some r

section Runs

variable {calls rows : List TranscriptRow} {row : TranscriptRow}

theorem upsertAll_concat (calls : List TranscriptRow) (row : TranscriptRow) :
    upsertAll (calls ++ [row]) = (upsertRow (upsertAll calls) row).1 := by
  simp [upsertAll]

theorem lastRow_concat (calls : List TranscriptRow) (row r : TranscriptRow) :
    lastRow (calls ++ [row]) r.sequenceId = some r ↔
      r = row ∨ lastRow calls r.sequenceId = some r ∧ r.sequenceId ≠ row.sequenceId := by
  simp only [lastRow, List.filter_append]
  by_cases hid : row.sequenceId = r.sequenceId
  · simp [hid, eq_comm]
  · have hne : r ≠ row := fun h => hid (congrArg _ h.symm)
    simp [hid, hne, Ne.symm hid]

theorem listed_upsertAll (hnan : ∀ row ∈ calls, row.audioStartTime.isNaN = false) :
    Listed (upsertAll calls) := by
  induction calls using List.reverseRecOn with
  | nil => exact .nil
  | append_singleton calls row ih =>
    have hrow := hnan row (by simp)
    have hlisted := ih fun r hr => hnan r (List.mem_append_left _ hr)
    rw [upsertAll_concat]
    exact (upserted_upsertRow hlisted hrow).listed hlisted hrow

theorem mem_upsertAll (hnan : ∀ row ∈ calls, row.audioStartTime.isNaN = false)
    (r : TranscriptRow) : r ∈ upsertAll calls ↔ lastRow calls r.sequenceId = some r := by
  induction calls using List.reverseRecOn with
  | nil => simp [upsertAll, lastRow]
  | append_singleton calls row ih =>
    have hnan' : ∀ r ∈ calls, r.audioStartTime.isNaN = false :=
      fun r hr => hnan r (List.mem_append_left _ hr)
    have hlisted := listed_upsertAll hnan'
    rw [upsertAll_concat, (upserted_upsertRow hlisted (hnan row (by simp))).mem_iff hlisted,
      lastRow_concat, ih hnan']

/-- The list is sorted, a row for each sequence number. -/
theorem Listed.transcriptList (h : Listed rows)
    (hmem : ∀ r, r ∈ rows ↔ lastRow calls r.sequenceId = some r) : TranscriptList calls rows where
  sorted := by
    refine h.sorted.imp_of_mem ?_
    intro a b ha hb hab
    rw [compareRows_eq (h.comparable a ha) (h.comparable b hb)]
    exact compare_lt_iff_lt.mpr hab
  distinct := h.distinct
  mem_iff := hmem

/-- **The live transcript.** After any sequence of upserts with finite start times the list is sorted
and holds exactly the last row for each sequence number; and whichever row comes next, a copy of the
list that follows the change is the new list. -/
theorem transcriptList_upsertAll (calls : List TranscriptRow)
    (hfinite : ∀ row ∈ calls, row.audioStartTime.isFinite = true) :
    TranscriptList calls (upsertAll calls) ∧
      ∀ row, row.audioStartTime.isFinite = true →
        (upsertRow (upsertAll calls) row).2.apply row (upsertAll calls) =
          some (upsertAll (calls ++ [row])) := by
  have hnan : ∀ row ∈ calls, row.audioStartTime.isNaN = false :=
    fun row hrow => isNaN_of_isFinite (hfinite row hrow)
  have hlisted := listed_upsertAll hnan
  refine ⟨hlisted.transcriptList (mem_upsertAll hnan), ?_⟩
  intro row hrow
  rw [upsertAll_concat]
  exact (upserted_upsertRow hlisted (isNaN_of_isFinite hrow)).apply

/-- The segment with number `sequenceId` that starts at `start`. -/
def spoken (sequenceId : UInt64) (start : Float) (text : String) : TranscriptRow where
  sequenceId := sequenceId
  audioStartTime := start
  speaker := "Me"
  text := text
  source := "mic"

/-- The first segment comes late, and then again with a later start. -/
theorem transcriptList_moved :
    let calls := [spoken 2 5.0 "second", spoken 1 1.0 "first"]
    TranscriptList calls (upsertAll calls) ∧
      (upsertRow (upsertAll calls) (spoken 1 7.0 "first, later")).2.apply
          (spoken 1 7.0 "first, later") (upsertAll calls) =
        some (upsertAll (calls ++ [spoken 1 7.0 "first, later"])) := by
  have h := transcriptList_upsertAll [spoken 2 5.0 "second", spoken 1 1.0 "first"] (by
    intro row hrow
    simp only [List.mem_cons, List.not_mem_nil, or_false] at hrow
    rcases hrow with rfl | rfl <;> decide +kernel)
  exact ⟨h.1, h.2 _ (by decide +kernel)⟩

example : (upsertRow (upsertAll [spoken 2 5.0 "second", spoken 1 1.0 "first"])
    (spoken 1 7.0 "first, later")).2 = .repositioned 0 1 := by decide +kernel

end Runs

end MeetilyLocal.RecordingPage
