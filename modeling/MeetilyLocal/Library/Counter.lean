import Mathlib.Data.Finset.Card
import MeetilyLocal.Library.Tasks

/-!
# Counters of holders

A number in the shared state that a task increments when it begins to hold something and decrements
when it ceases to (`Counter`). Then it is the number of tasks that do, and it is zero exactly while
none does.
-/

namespace MeetilyLocal

namespace Tasks

variable {Shared Task Env Call : Type}

/-- A number, and the points of the program at which a task is counted. -/
structure Counter (p : Program Shared Task Env Call) (count : Shared → ℕ) (holds : Task → Bool) :
    Prop where
  /-- a slot without a task is not counted -/
  free {a : Task} : p.isFree a = true → holds a = false
  /-- a call does not touch it -/
  call {k : Call} {s s' : Shared} {a : Task} : p.begins k s = some (s', a) →
    count s' = count s ∧ holds a = false
  /-- a step leaves it alone, counts its task or ceases to -/
  step {env : Env} {s : Shared} {a : Task} {move : Move Shared Task} :
    p.step env s a = some move →
    (count move.shared = count s ∧ holds move.task = holds a) ∨
    (holds a = false ∧ count move.shared = count s + 1 ∧ holds move.task = true) ∨
    (holds a = true ∧ count move.shared = count s - 1 ∧ holds move.task = false)
  /-- what is spawned is not counted -/
  spawn {env : Env} {s : Shared} {a child : Task} {move : Move Shared Task} :
    p.step env s a = some move → move.spawned = some child → holds child = false

namespace Counter

variable {p : Program Shared Task Env Call} {d : Discipline Shared Task Env Call}
  {count : Shared → ℕ} {holds : Task → Bool} {start c c' : Config Shared Task}

/-- The tasks that are counted. -/
def Holders (holds : Task → Bool) (c : Config Shared Task) (S : Finset ℕ) : Prop :=
  ∀ t, t ∈ S ↔ holds (c.tasks t) = true

/-- A step counts the other tasks as before. -/
theorem holds_of_afterMove (h : Counter p count holds) {env : Env} {t child u : ℕ}
    {move : Move Shared Task} (hstep : p.step env c.shared (c.tasks t) = some move)
    (hafter : p.afterMove c t child move = some c') (hu : u ≠ t) :
    holds (c'.tasks u) = holds (c.tasks u) := by
  rw [Program.afterMove] at hafter
  split at hafter
  · cases hafter
    exact congrArg holds (Function.update_of_ne hu _ _)
  · next task hspawned =>
    split at hafter
    · next hchild =>
      cases hafter
      obtain ⟨hfree, -⟩ : p.isFree (c.tasks child) = true ∧ child ≠ t := by simpa using hchild
      rcases eq_or_ne u child with rfl | huchild
      · rw [h.free hfree, ← h.spawn hstep hspawned]
        exact congrArg holds (Function.update_self _ _ _)
      · simp [huchild, hu]
    · cases hafter

/-- **The counter counts.** -/
theorem exists_holders (h : Counter p count holds) (hstart : ∀ t, holds (start.tasks t) = false)
    (hzero : count start.shared = 0) (hreach : Reaches p d start c) :
    ∃ S, Holders holds c S ∧ S.card = count c.shared := by
  induction hreach with
  | refl => exact ⟨∅, fun t => by simp [hstart t], by simp [hzero]⟩
  | @step c c' label _ _ hnext ih =>
    obtain ⟨S, hS, hcard⟩ := ih
    rcases Program.next_cases hnext with
      ⟨t, call, shared, task, rfl, hfree, hbegins, rfl⟩ | ⟨t, env, child, move, rfl, hstep, hafter⟩
    · obtain ⟨hcount, htask⟩ := h.call hbegins
      refine ⟨S, fun u => ?_, hcard.trans hcount.symm⟩
      rcases eq_or_ne u t with rfl | hu
      · simp [hS u, h.free hfree, htask]
      · simp [hS u, hu]
    · obtain ⟨hshared, htask, -⟩ := Program.afterMove_cases hafter
      have hother : ∀ u ≠ t, (u ∈ S ↔ holds (c'.tasks u) = true) := fun u hu => by
        rw [hS u, h.holds_of_afterMove hstep hafter hu]
      rw [hshared]
      rcases h.step hstep with ⟨hcount, hsame⟩ | ⟨hidle, hcount, hheld⟩ | ⟨hheld, hcount, hidle⟩
      · refine ⟨S, fun u => ?_, hcard.trans hcount.symm⟩
        rcases eq_or_ne u t with rfl | hu
        · rw [hS u, htask, hsame]
        · exact hother u hu
      · -- one more
        have hmem : t ∉ S := by
          rw [hS t, hidle]
          exact Bool.false_ne_true
        refine ⟨insert t S, fun u => ?_, ?_⟩
        · rcases eq_or_ne u t with rfl | hu
          · simp [htask, hheld]
          · simp [hu, hother u hu]
        · rw [Finset.card_insert_of_notMem hmem, hcard, hcount]
      · -- one fewer
        have hmem : t ∈ S := (hS t).mpr hheld
        refine ⟨S.erase t, fun u => ?_, ?_⟩
        · rcases eq_or_ne u t with rfl | hu
          · simp [htask, hidle]
          · simp [hu, hother u hu]
        · rw [Finset.card_erase_of_mem hmem, hcard, hcount]

/-- A task that is counted, and the number. -/
def assertions (count : Shared → ℕ) (holds : Task → Bool) : Assertions Shared Task where
  shared _ := True
  own s a := holds a = true → 0 < count s
  pair _ _ := True

theorem hold (h : Counter p count holds) (hstart : ∀ t, holds (start.tasks t) = false)
    (hzero : count start.shared = 0) (hreach : Reaches p d start c) :
    (assertions count holds).Hold c := by
  obtain ⟨S, hS, hcard⟩ := h.exists_holders hstart hzero hreach
  refine ⟨True.intro, fun t ht => ?_, fun _ _ _ => True.intro⟩
  exact hcard ▸ Finset.card_pos.mpr ⟨t, (hS t).mpr ht⟩

end Counter

end Tasks

end MeetilyLocal
