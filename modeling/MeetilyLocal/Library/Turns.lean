import MeetilyLocal.Library.Tasks

/-!
# Tasks that take turns

Stretches of the program that no two tasks are in at a time, not because of a lock but because the
runs are such (`Turns`): a task enters one only while no other task is in one. Then the shared state
is as the task in its stretch left it, and between the stretches it is at rest.
-/

namespace MeetilyLocal

namespace Tasks

variable {Shared Task Env Call : Type}

/-- What is to be checked of one step for tasks to take turns, given what is `known` of
configurations: a task is `active` in its stretch, the state `fits` where it is there, and is at
`rest` otherwise. -/
structure Turns (known : Config Shared Task → Prop) (p : Program Shared Task Env Call)
    (d : Discipline Shared Task Env Call) (active : Task → Bool) (rest : Shared → Prop)
    (fits : Shared → Task → Prop) : Prop where
  /-- a slot without a task is not active -/
  free {a : Task} : p.isFree a = true → active a = false
  /-- a call begins outside of its stretch, and disturbs nothing -/
  call {c : Config Shared Task} {t : ℕ} {k : Call} {s' : Shared} {a : Task} : known c →
    d.Allows c (.call t k) → p.begins k c.shared = some (s', a) →
    active a = false ∧ (rest c.shared → rest s') ∧
      ∀ b, active b = true → fits c.shared b → fits s' b
  /-- so does a task that is spawned -/
  spawn {env : Env} {s : Shared} {a child : Task} {move : Move Shared Task} :
    p.step env s a = some move → move.spawned = some child → active child = false
  /-- a task enters its stretch while no other task is in one -/
  alone {c : Config Shared Task} {t child u : ℕ} {env : Env} {move : Move Shared Task} : known c →
    d.Allows c (.run t env child) → p.step env c.shared (c.tasks t) = some move →
    active (c.tasks t) = false → active move.task = true → u ≠ t → active (c.tasks u) = false
  /-- it finds the state at rest -/
  enter {c : Config Shared Task} {t child : ℕ} {env : Env} {move : Move Shared Task} : known c →
    d.Allows c (.run t env child) → p.step env c.shared (c.tasks t) = some move →
    active (c.tasks t) = false → active move.task = true → rest c.shared →
    fits move.shared move.task
  /-- inside, it leaves the state as it needs it -/
  within {c : Config Shared Task} {t child : ℕ} {env : Env} {move : Move Shared Task} : known c →
    d.Allows c (.run t env child) → p.step env c.shared (c.tasks t) = some move →
    active (c.tasks t) = true → active move.task = true → fits c.shared (c.tasks t) →
    fits move.shared move.task
  /-- it leaves the state at rest -/
  leave {c : Config Shared Task} {t child : ℕ} {env : Env} {move : Move Shared Task} : known c →
    d.Allows c (.run t env child) → p.step env c.shared (c.tasks t) = some move →
    active (c.tasks t) = true → active move.task = false → fits c.shared (c.tasks t) →
    rest move.shared
  /-- a task outside disturbs nothing -/
  outside {c : Config Shared Task} {t child : ℕ} {env : Env} {move : Move Shared Task} : known c →
    d.Allows c (.run t env child) → p.step env c.shared (c.tasks t) = some move →
    active (c.tasks t) = false → active move.task = false →
    (rest c.shared → rest move.shared) ∧
      ∀ u ≠ t, active (c.tasks u) = true → fits c.shared (c.tasks u) →
        fits move.shared (c.tasks u)

namespace Turns

/-- Whose turn it is. -/
structure Hold (active : Task → Bool) (rest : Shared → Prop) (fits : Shared → Task → Prop)
    (c : Config Shared Task) : Prop where
  /-- only one task is active -/
  alone : ∀ t u, t ≠ u → active (c.tasks t) = true → active (c.tasks u) = false
  /-- the state fits where it is -/
  fits : ∀ t, active (c.tasks t) = true → fits c.shared (c.tasks t)
  /-- between turns the state is at rest -/
  rest : (∀ t, active (c.tasks t) = false) → rest c.shared

variable {known : Config Shared Task → Prop} {p : Program Shared Task Env Call}
  {d : Discipline Shared Task Env Call} {active : Task → Bool} {rest : Shared → Prop}
  {fits : Shared → Task → Prop} {start c c' : Config Shared Task}

/-- An active task has taken the step, or was active before it. -/
theorem active_of_afterMove (h : Turns known p d active rest fits) {env : Env} {t child u : ℕ}
    {move : Move Shared Task} (hstep : p.step env c.shared (c.tasks t) = some move)
    (hafter : p.afterMove c t child move = some c') (hu : u ≠ t)
    (hactive : active (c'.tasks u) = true) : c'.tasks u = c.tasks u := by
  obtain ⟨-, -, hothers⟩ := Program.afterMove_cases hafter
  rcases hothers u hu with hsame | ⟨hspawned, -⟩
  · exact hsame
  · rw [h.spawn hstep hspawned] at hactive
    cases hactive

/-- What is not active after a step was not active before it, but maybe the task that took it. -/
theorem inactive_of_afterMove (h : Turns known p d active rest fits) {t child u : ℕ}
    {move : Move Shared Task} (hafter : p.afterMove c t child move = some c')
    (hidle : ∀ u, ¬active (c'.tasks u) = true) (hu : u ≠ t) : active (c.tasks u) = false := by
  have hfree : ∀ a, p.isFree a = true → ¬active a = true := fun a ha => by simp [h.free ha]
  obtain ⟨hbefore, -⟩ := Program.not_of_afterMove hafter hfree hidle
  exact Bool.eq_false_iff.mpr (hbefore u hu)

/-- A call leaves the turns. -/
theorem hold_call (h : Turns known p d active rest fits) (hknown : known c)
    (hturns : Hold active rest fits c) {t : ℕ} {k : Call} {s' : Shared} {a : Task}
    (hallow : d.Allows c (.call t k)) (hfree : p.isFree (c.tasks t) = true)
    (hbegins : p.begins k c.shared = some (s', a)) :
    Hold active rest fits ⟨s', Function.update c.tasks t a⟩ := by
  obtain ⟨hinactive, hrest, hfits⟩ := h.call hknown hallow hbegins
  have hsame : ∀ u, active (Function.update c.tasks t a u) = active (c.tasks u) := by
    intro u
    rcases eq_or_ne u t with rfl | hu
    · simp [hinactive, h.free hfree]
    · simp [hu]
  refine ⟨fun u v huv hactive => ?_, fun u hactive => ?_,
    fun hidle => hrest (hturns.rest fun u => ?_)⟩
  · exact (hsame v).trans (hturns.alone u v huv ((hsame u).symm.trans hactive))
  · have hbefore := (hsame u).symm.trans hactive
    rcases eq_or_ne u t with rfl | hu
    · rw [h.free hfree] at hbefore
      cases hbefore
    · have htask : Function.update c.tasks t a u = c.tasks u := Function.update_of_ne hu _ _
      show fits s' (Function.update c.tasks t a u)
      rw [htask]
      exact hfits _ hbefore (hturns.fits u hbefore)
  · exact (hsame u).symm.trans (hidle u)

/-- A step leaves the turns. -/
theorem hold_run (h : Turns known p d active rest fits) (hknown : known c)
    (hturns : Hold active rest fits c) {t child : ℕ} {env : Env} {move : Move Shared Task}
    (hallow : d.Allows c (.run t env child))
    (hstep : p.step env c.shared (c.tasks t) = some move)
    (hafter : p.afterMove c t child move = some c') : Hold active rest fits c' := by
  obtain ⟨hshared, htask, -⟩ := Program.afterMove_cases hafter
  have hother : ∀ u ≠ t, active (c'.tasks u) = true → c'.tasks u = c.tasks u :=
    fun u hu => h.active_of_afterMove hstep hafter hu
  have hmine : active move.task = true → ∀ u ≠ t, active (c.tasks u) = false := by
    intro hmoved u hu
    rcases hbefore : active (c.tasks t) with _ | _
    · exact h.alone hknown hallow hstep hbefore hmoved hu
    · exact hturns.alone t u hu.symm hbefore
  refine ⟨fun u v huv hactive => ?_, fun u hactive => ?_, fun hidle => ?_⟩
  · rcases hv : active (c'.tasks v) with _ | _
    · rfl
    exfalso
    -- of two active tasks one at most has taken the step
    rcases eq_or_ne u t with rfl | hu
    · have hsame := hother v huv.symm hv
      rw [hsame, hmine (htask ▸ hactive) v huv.symm] at hv
      cases hv
    · have hsame := hother u hu hactive
      rw [hsame] at hactive
      rcases eq_or_ne v t with rfl | hvt
      · rw [hmine (htask ▸ hv) u hu] at hactive
        cases hactive
      · rw [hother v hvt hv, hturns.alone u v huv hactive] at hv
        cases hv
  · rw [hshared]
    rcases eq_or_ne u t with rfl | hu
    · rw [htask] at hactive ⊢
      rcases hbefore : active (c.tasks u) with _ | _
      · refine h.enter hknown hallow hstep hbefore hactive (hturns.rest fun v => ?_)
        rcases eq_or_ne v u with rfl | hv
        · exact hbefore
        · exact hmine hactive v hv
      · exact h.within hknown hallow hstep hbefore hactive (hturns.fits u hbefore)
    · have hsame := hother u hu hactive
      rw [hsame] at hactive ⊢
      have hbefore : active (c.tasks t) = false := hturns.alone u t hu hactive
      have hmoved : active move.task = false := by
        rcases hmoved : active move.task with _ | _
        · rfl
        · rw [hmine hmoved u hu] at hactive
          cases hactive
      exact (h.outside hknown hallow hstep hbefore hmoved).2 u hu hactive (hturns.fits u hactive)
  · rw [hshared]
    have hmoved : active move.task = false := htask ▸ hidle t
    have hothers : ∀ u ≠ t, active (c.tasks u) = false := fun u hu =>
      h.inactive_of_afterMove hafter (fun u => by simp [hidle u]) hu
    rcases hbefore : active (c.tasks t) with _ | _
    · refine (h.outside hknown hallow hstep hbefore hmoved).1 (hturns.rest fun u => ?_)
      rcases eq_or_ne u t with rfl | hu
      · exact hbefore
      · exact hothers u hu
    · exact h.leave hknown hallow hstep hbefore hmoved (hturns.fits t hbefore)

/-- **Turns.** Tasks that take turns at the start do so throughout a run. -/
theorem hold_of_reaches (h : Turns known p d active rest fits)
    (hknown : ∀ c, Reaches p d start c → known c) (hidle : ∀ t, active (start.tasks t) = false)
    (hrest : rest start.shared) (hreach : Reaches p d start c) : Hold active rest fits c := by
  induction hreach with
  | refl =>
    refine ⟨fun t _ _ hactive => ?_, fun t hactive => ?_, fun _ => hrest⟩
    · rw [hidle t] at hactive
      cases hactive
    · rw [hidle t] at hactive
      cases hactive
  | step hreach hallow hnext ih =>
    rcases Program.next_cases hnext with
      ⟨t, k, s', a, rfl, hfree, hbegins, rfl⟩ | ⟨t, env, child, move, rfl, hstep, hafter⟩
    · exact h.hold_call (hknown _ hreach) ih hallow hfree hbegins
    · exact h.hold_run (hknown _ hreach) ih hallow hstep hafter

end Turns

end Tasks

end MeetilyLocal
