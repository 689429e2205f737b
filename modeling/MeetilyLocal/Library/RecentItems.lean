import Mathlib.Data.List.Basic
import Mathlib.Data.List.Induction
import Mathlib.Data.List.TakeWhile
import Mathlib.Tactic.Common

/-!
# A buffer of recent items

Items are pushed to the back of a buffer that keeps no more than `cap` of them, and items that are
old are dropped from its front. What the buffer holds is the end of what was pushed, and an item that
it no longer holds was found to be old, or has `cap` later ones (`exists_goneUpTo`).
-/

namespace MeetilyLocal

namespace Recent

universe u v

/-- What is done to the buffer: an item is pushed, or what is old at some point is dropped. -/
inductive Op (α : Type u) (κ : Type v) : Type max u v where
  /-- push an item -/
  | push (item : α) : Op α κ
  /-- drop old items from the front -/
  | prune (now : κ) : Op α κ

variable {α : Type u} {κ : Type v} (cap : ℕ) (old : κ → α → Bool)

/-- Push an item, and pop the front while there are too many. -/
def push (buffer : List α) (item : α) : List α :=
  (buffer ++ [item]).drop ((buffer ++ [item]).length - cap)

/-- Drop what is old, until the front is not. -/
def prune (buffer : List α) (now : κ) : List α := buffer.dropWhile (old now)

/-- What an operation makes of the buffer. -/
def step (buffer : List α) : Op α κ → List α
  | .push item => push cap buffer item
  | .prune now => prune old buffer now

/-- The buffer after operations. -/
def run (ops : List (Op α κ)) : List α := ops.foldl (step cap old) []

/-- The item that an operation pushes. -/
def Op.pushed? : Op α κ → Option α
  | .push item => some item
  | .prune _ => none

/-- What was ever pushed. -/
def pushed (ops : List (Op α κ)) : List α := ops.filterMap Op.pushed?

variable {cap old}

@[simp]
theorem run_push (ops : List (Op α κ)) (item : α) :
    run cap old (ops ++ [.push item]) = push cap (run cap old ops) item := by
  simp [run, step]

@[simp]
theorem run_prune (ops : List (Op α κ)) (now : κ) :
    run cap old (ops ++ [.prune now]) = prune old (run cap old ops) now := by
  simp [run, step]

@[simp]
theorem pushed_push (ops : List (Op α κ)) (item : α) :
    pushed (ops ++ [.push item]) = pushed ops ++ [item] := by
  simp [pushed, Op.pushed?]

@[simp]
theorem pushed_prune (ops : List (Op α κ)) (now : κ) :
    pushed (ops ++ [.prune now]) = pushed ops := by
  simp [pushed, Op.pushed?]

/-- The first `n` pushed items are the ones that are gone, and each for a reason. -/
structure GoneUpTo (cap : ℕ) (old : κ → α → Bool) (ops : List (Op α κ)) (n : ℕ) : Prop where
  /-- as many were pushed -/
  le : n ≤ (pushed ops).length
  /-- the buffer holds the others -/
  run_eq : run cap old ops = (pushed ops).drop n
  /-- each was old once, or has enough after it -/
  reason : ∀ i item, i < n → (pushed ops)[i]? = some item →
    (∃ now, .prune now ∈ ops ∧ old now item) ∨ i + cap < (pushed ops).length

theorem GoneUpTo.push {ops : List (Op α κ)} {n : ℕ} (h : GoneUpTo cap old ops n) (item : α) :
    ∃ m, GoneUpTo cap old (ops ++ [.push item]) m := by
  have hle := h.le
  refine ⟨n + ((pushed ops).length - n + 1 - cap), ⟨?_, ?_, fun i front hi hfront => ?_⟩⟩
  · simp only [pushed_push, List.length_append, List.length_cons, List.length_nil]
    omega
  · rw [run_push, Recent.push, h.run_eq, pushed_push, ← List.drop_append_of_le_length h.le,
      List.drop_drop]
    simp only [List.length_drop, List.length_append, List.length_cons, List.length_nil]
    congr 1
    omega
  · simp only [pushed_push, List.length_append, List.length_cons, List.length_nil] at hfront ⊢
    -- gone before, or popped now because of the cap
    by_cases hn : i < n
    · rw [List.getElem?_append_left (by omega)] at hfront
      rcases h.reason i front hn hfront with ⟨now, hmem, hold⟩ | hcap
      · exact .inl ⟨now, List.mem_append_left _ hmem, hold⟩
      · exact .inr (by omega)
    · exact .inr (by omega)

theorem GoneUpTo.prune {ops : List (Op α κ)} {n : ℕ} (h : GoneUpTo cap old ops n) (now : κ) :
    ∃ m, GoneUpTo cap old (ops ++ [.prune now]) m := by
  have hle := h.le
  have hsplit : (pushed ops).drop n = ((pushed ops).drop n).takeWhile (old now) ++
      ((pushed ops).drop n).dropWhile (old now) := List.takeWhile_append_dropWhile.symm
  generalize htaken : ((pushed ops).drop n).takeWhile (old now) = taken at hsplit
  have hlength := congrArg List.length hsplit
  rw [List.length_append, List.length_drop] at hlength
  refine ⟨n + taken.length, ⟨?_, ?_, fun i front hi hfront => ?_⟩⟩
  · rw [pushed_prune]
    omega
  · rw [run_prune, Recent.prune, h.run_eq, pushed_prune, ← List.drop_drop, hsplit,
      List.drop_left, ← hsplit]
  · rw [pushed_prune] at hfront ⊢
    -- gone before, or one of those that are found to be old now
    by_cases hn : i < n
    · rcases h.reason i front hn hfront with ⟨before, hmem, hold⟩ | hcap
      · exact .inl ⟨before, List.mem_append_left _ hmem, hold⟩
      · exact .inr hcap
    · have hat : taken[i - n]? = some front := by
        have hdrop : ((pushed ops).drop n)[i - n]? = some front := by
          rw [List.getElem?_drop, Nat.add_sub_cancel' (by omega), hfront]
        rwa [hsplit, List.getElem?_append_left (by omega)] at hdrop
      refine .inl ⟨now, List.mem_append_right _ (List.mem_singleton_self _), ?_⟩
      exact List.mem_takeWhile_imp (htaken ▸ List.mem_of_getElem? hat)

variable (cap old) in
theorem exists_goneUpTo (ops : List (Op α κ)) : ∃ n, GoneUpTo cap old ops n := by
  induction ops using List.reverseRecOn with
  | nil => exact ⟨0, ⟨by simp, by simp [run, pushed], fun i item hi _ => absurd hi (by simp)⟩⟩
  | append_singleton ops op ih =>
    obtain ⟨n, h⟩ := ih
    cases op with
    | push item => exact h.push item
    | prune now => exact h.prune now

end Recent

end MeetilyLocal
