import MeetilyLocal.Library.Text
import Mathlib.Data.Char
import Mathlib.Data.List.Dedup
import Mathlib.Data.List.Lex
import Mathlib.Logic.Function.Basic
import Mathlib.Tactic.Common

/-!
# One directory, its files and their names

A directory maps the names of its files to their contents. Writing a file and renaming one can
fail; a failed write may leave a file with a prefix of the bytes behind, a failed rename leaves
everything as it was. The names of a directory are listed in an order that is not specified
(`Lists`).

A file name is split at its last dot (`rsplitFileAtDot`) into stem and extension.
-/

namespace MeetilyLocal

/-- The name of a file in its directory. -/
abbrev FileName : Type := List Char

namespace FileName

/-- Split a file name at its last dot: what is before it, what is after it. -/
def rsplitFileAtDot (file : FileName) : Option FileName × Option FileName :=
  if file = ['.', '.'] then (some file, none)
  else
    let after := (file.reverse.takeWhile (· != '.')).reverse
    let before := if '.' ∈ file then some (file.reverse.dropWhile (· != '.')).tail.reverse else none
    if before = some [] then (some file, none) else (before, some after)

/-- The part of a file name before its last dot, or all of it. -/
def fileStem (file : FileName) : Option FileName :=
  (rsplitFileAtDot file).1.or (rsplitFileAtDot file).2

/-- The part of a file name after its last dot. -/
def extension (file : FileName) : Option FileName :=
  (rsplitFileAtDot file).1.bind fun _ => (rsplitFileAtDot file).2

/-- The file name with another extension, which is not empty. -/
def withExtension (file ext : FileName) : FileName := (fileStem file).getD [] ++ '.' :: ext

theorem rsplitFileAtDot_append {stem ext : FileName} (hstem : stem ≠ []) (hext : '.' ∉ ext)
    (hne : ext ≠ []) : rsplitFileAtDot (stem ++ '.' :: ext) = (some stem, some ext) := by
  have hdots : stem ++ '.' :: ext ≠ ['.', '.'] := by
    intro h
    cases stem with
    | nil => exact hstem rfl
    | cons c stem =>
      have hlen := congrArg List.length h
      have hpos := List.length_pos_of_ne_nil hne
      simp at hlen
      omega
  have hrev : ∀ c ∈ ext.reverse, (c != '.') = true := by
    intro c hc
    rw [bne_iff_ne]
    rintro rfl
    exact hext (List.mem_reverse.mp hc)
  have hsplit : (stem ++ '.' :: ext).reverse = ext.reverse ++ '.' :: stem.reverse := by simp
  rw [rsplitFileAtDot, if_neg hdots, hsplit, List.takeWhile_append_of_pos hrev,
    List.dropWhile_append_of_pos hrev]
  simp [hstem]

theorem fileStem_append {stem ext : FileName} (hstem : stem ≠ []) (hext : '.' ∉ ext)
    (hne : ext ≠ []) : fileStem (stem ++ '.' :: ext) = some stem := by
  rw [fileStem, rsplitFileAtDot_append hstem hext hne]
  rfl

theorem extension_append {stem ext : FileName} (hstem : stem ≠ []) (hext : '.' ∉ ext)
    (hne : ext ≠ []) : extension (stem ++ '.' :: ext) = some ext := by
  rw [extension, rsplitFileAtDot_append hstem hext hne]
  rfl

end FileName

/-- A directory: the contents of the files that exist. -/
abbrev Directory : Type := FileName → Option (List UInt8)

/-- How writing a whole file went. -/
inductive WriteOutcome : Type where
  /-- the file now holds the bytes -/
  | ok : WriteOutcome
  /-- it failed with a message; `some n`: a file with the first `n` bytes is left behind -/
  | failed : String → Option ℕ → WriteOutcome

/-- How renaming a file went. -/
inductive RenameOutcome : Type where
  /-- the file has its new name -/
  | ok : RenameOutcome
  /-- it failed with a message and nothing changed -/
  | failed : String → RenameOutcome

namespace Directory

/-- No files. -/
def empty : Directory := fun _ => none

/-- Create or replace a file with the given bytes. -/
def write (dir : Directory) (file : FileName) (bytes : List UInt8) :
    WriteOutcome → Except String Unit × Directory
  | .ok => (.ok (), Function.update dir file (some bytes))
  | .failed message none => (.error message, dir)
  | .failed message (some n) => (.error message, Function.update dir file (some (bytes.take n)))

/-- Add bytes at the end of a file, creating it if it does not exist. -/
def append (dir : Directory) (file : FileName) (bytes : List UInt8) :
    WriteOutcome → Except String Unit × Directory
  | .ok => (.ok (), Function.update dir file (some ((dir file).getD [] ++ bytes)))
  | .failed message none => (.error message, dir)
  | .failed message (some n) =>
    (.error message, Function.update dir file (some ((dir file).getD [] ++ bytes.take n)))

/-- `fs::read_to_string` -/
def readToString (dir : Directory) (file : FileName) : Except String (List Char) :=
  match dir file with
  | none => .error "No such file or directory (os error 2)"
  | some bytes =>
    match Utf8.decode bytes with
    | none => .error "stream did not contain valid UTF-8"
    | some text => .ok text

/-- Cut a file off after its first `k` bytes. -/
def tear (dir : Directory) (file : FileName) (k : ℕ) : Directory :=
  Function.update dir file ((dir file).map fun bytes => bytes.take k)

/-- Give a file a new name, replacing what had it. -/
def rename (dir : Directory) (source target : FileName) :
    RenameOutcome → Except String Unit × Directory
  | .ok => (.ok (), Function.update (Function.update dir target (dir source)) source none)
  | .failed message => (.error message, dir)

/-- `listing` names the files of the directory, each once, in any order. -/
structure Lists (dir : Directory) (listing : List FileName) : Prop where
  /-- no file is named twice -/
  nodup : listing.Nodup
  /-- exactly the files that exist are named -/
  mem_iff : ∀ file, file ∈ listing ↔ dir file ≠ none

/-- A write touches no other file, however it went. -/
theorem write_of_ne {dir : Directory} {file file' : FileName} (h : file' ≠ file)
    (bytes : List UInt8) (outcome : WriteOutcome) :
    (dir.write file bytes outcome).2 file' = dir file' := by
  rcases outcome with _ | ⟨message, _ | n⟩
  · exact Function.update_of_ne h _ _
  · rfl
  · exact Function.update_of_ne h _ _

/-- A directory that differs from a listed one in finitely many files can be listed too. -/
theorem exists_lists_of_agree {dir dir' : Directory} (h : ∃ listing, dir.Lists listing)
    (changed : List FileName) (hsame : ∀ file, file ∉ changed → dir' file = dir file) :
    ∃ listing, dir'.Lists listing := by
  obtain ⟨listing, hlist⟩ := h
  refine ⟨(listing ++ changed).dedup.filter fun file => (dir' file).isSome,
    (List.nodup_dedup _).filter _, fun file => ?_⟩
  rw [List.mem_filter, List.mem_dedup, List.mem_append, ← Option.isSome_iff_ne_none]
  refine ⟨fun hmem => hmem.2, fun hsome => ⟨?_, hsome⟩⟩
  by_cases hchanged : file ∈ changed
  · exact Or.inr hchanged
  · refine Or.inl ((hlist.mem_iff file).mpr ?_)
    rw [← hsame file hchanged]
    exact Option.isSome_iff_ne_none.mp hsome

/-- The order in which names are sorted. -/
def nameLe (a b : FileName) : Bool := decide (a ≤ b)

theorem pairwise_mergeSort (listing : List FileName) :
    (listing.mergeSort nameLe).Pairwise fun a b => a ≤ b := by
  have htrans : ∀ a b c, nameLe a b = true → nameLe b c = true → nameLe a c = true :=
    fun a b c hab hbc => decide_eq_true ((of_decide_eq_true hab).trans (of_decide_eq_true hbc))
  have htotal : ∀ a b, (nameLe a b || nameLe b a) = true := fun a b => by
    simpa [nameLe] using le_total a b
  exact (List.pairwise_mergeSort htrans htotal listing).imp fun hab => of_decide_eq_true hab

/-- Sorting a listing gives the one arrangement of it in which the names increase. -/
theorem mergeSort_eq {listing sorted : List FileName} (hperm : listing.Perm sorted)
    (hsorted : sorted.Pairwise (· < ·)) : listing.mergeSort nameLe = sorted :=
  List.Perm.eq_of_pairwise (fun _ _ _ _ hab hba => le_antisymm hab hba)
    (pairwise_mergeSort listing) (hsorted.imp fun hab => hab.le)
    ((List.mergeSort_perm _ _).trans hperm)

end Directory

end MeetilyLocal
