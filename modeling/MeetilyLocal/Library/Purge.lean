import Mathlib.Data.List.Basic
import Mathlib.Tactic.Common

/-!
# What an observer can tell of a run

An observer sees a part of the state, and some of the actions are about that part. If the others leave
it as it is, and what an action does to it depends on nothing else (`Unwinds`), then a run shows what its
actions about it alone show, and nothing of the others (`observe_run_purge`).
-/

namespace MeetilyLocal

universe u v w

/-- A system with an observer. -/
structure Observed (σ : Type u) (α : Type v) (ο : Type w) where
  /-- what an action does -/
  step : σ → α → σ
  /-- what is seen of a state -/
  observe : σ → ο
  /-- whether an action is about what is seen -/
  touches : α → Bool

namespace Observed

variable {σ : Type u} {α : Type v} {ο : Type w} {sys : Observed σ α ο}

/-- Some actions, one after the other. -/
def run (sys : Observed σ α ο) (actions : List α) (s : σ) : σ := actions.foldl sys.step s

@[simp] theorem run_nil (s : σ) : sys.run [] s = s := rfl

@[simp] theorem run_cons (a : α) (actions : List α) (s : σ) :
    sys.run (a :: actions) s = sys.run actions (sys.step s a) := rfl

/-- The actions that are about what is seen. -/
def purge (sys : Observed σ α ο) (actions : List α) : List α := actions.filter sys.touches

/-- One step shows nothing that was not seen before. -/
structure Unwinds (sys : Observed σ α ο) : Prop where
  /-- an action that is not about what is seen leaves it -/
  apart : ∀ s a, sys.touches a = false → sys.observe (sys.step s a) = sys.observe s
  /-- states that look the same do so after an action -/
  alike : ∀ s t a, sys.observe s = sys.observe t →
    sys.observe (sys.step s a) = sys.observe (sys.step t a)

/-- States that look the same do so after a run. -/
theorem Unwinds.observe_run_congr (h : sys.Unwinds) (actions : List α) {s t : σ}
    (hst : sys.observe s = sys.observe t) :
    sys.observe (sys.run actions s) = sys.observe (sys.run actions t) := by
  induction actions generalizing s t with
  | nil => exact hst
  | cons a actions ih => exact ih (h.alike s t a hst)

/-- **A run shows what its actions about it alone show.** -/
theorem Unwinds.observe_run_purge (h : sys.Unwinds) (actions : List α) (s : σ) :
    sys.observe (sys.run actions s) = sys.observe (sys.run (sys.purge actions) s) := by
  induction actions generalizing s with
  | nil => rfl
  | cons a actions ih =>
    cases ha : sys.touches a with
    | true =>
      rw [purge, List.filter_cons_of_pos ha, run_cons, run_cons]
      exact ih _
    | false =>
      rw [purge, List.filter_cons_of_neg (by simp [ha]), run_cons, ih]
      exact h.observe_run_congr _ (h.apart s a ha)

end Observed

end MeetilyLocal
