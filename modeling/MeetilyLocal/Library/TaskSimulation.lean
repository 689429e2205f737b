import MeetilyLocal.Library.Tasks

/-!
# Programs that run others

A program whose tasks, seen through a map, run another program over the same shared state
(`Simulates`): each of their steps is a step there, or begins a call there, or is not seen. What
holds in every run of the other program holds then of the tasks as they are seen.
-/

namespace MeetilyLocal

namespace Tasks

variable {Shared Task Task' Env Call Call' : Type}

/-- A configuration as it is seen. -/
def Config.map (f : Task → Task') (c : Config Shared Task) : Config Shared Task' :=
  ⟨c.shared, fun t => f (c.tasks t)⟩

/-- What is to be checked of one step for the tasks of `p`, seen through `f`, to run `q`. -/
structure Simulates (p : Program Shared Task Env Call) (q : Program Shared Task' Env Call')
    (f : Task → Task') : Prop where
  /-- a slot without a task is seen as one -/
  free {a : Task} : p.isFree a = true → q.isFree (f a) = true
  /-- a call is not seen, or is a call there -/
  call {k : Call} {s s' : Shared} {a b : Task} : p.isFree b = true →
    p.begins k s = some (s', a) →
    (s' = s ∧ f a = f b) ∨ ∃ k', q.begins k' s = some (s', f a)
  /-- a step is one there, or spawns nothing and is not seen, or is a call there -/
  step {env : Env} {s : Shared} {a : Task} {move : Move Shared Task} :
    p.step env s a = some move →
    q.step env s (f a) = some ⟨move.shared, f move.task, move.spawned.map f⟩ ∨
    (move.spawned = none ∧ ((move.shared = s ∧ f move.task = f a) ∨
      (q.isFree (f a) = true ∧ ∃ k', q.begins k' s = some (move.shared, f move.task))))

namespace Simulates

variable {p : Program Shared Task Env Call} {q : Program Shared Task' Env Call'}
  {f : Task → Task'} {d : Discipline Shared Task Env Call} {start c : Config Shared Task}

theorem map_update (s : Shared) (tasks : ℕ → Task) (t : ℕ) (a : Task) :
    (⟨s, Function.update tasks t a⟩ : Config Shared Task).map f =
      ⟨s, Function.update (fun u => f (tasks u)) t (f a)⟩ := by
  simp only [Config.map, Config.mk.injEq, true_and]
  exact Function.comp_update f tasks t a

/-- A call may begin in a slot without a task. -/
theorem reaches_call {d' : Config Shared Task'} {start' : Config Shared Task'} {t : ℕ} {k : Call'}
    {s' : Shared} {a : Task'} (h : Reaches q .free start' d') (hfree : q.isFree (d'.tasks t) = true)
    (hbegins : q.begins k d'.shared = some (s', a)) :
    Reaches q .free start' ⟨s', Function.update d'.tasks t a⟩ := by
  have hallows : (Discipline.free : Discipline Shared Task' Env Call').Allows d' (.call t k) :=
    ⟨trivial, fun _ _ => trivial⟩
  refine h.step hallows ?_
  simp only [Program.next, hfree, hbegins, if_true, Option.map_some]

/-- **Simulation.** A run is seen as one of the other program. -/
theorem reaches (h : Simulates p q f) (hreach : Reaches p d start c) :
    Reaches q .free (start.map f) (c.map f) := by
  induction hreach with
  | refl => exact .refl
  | @step c c' label _ _ hnext ih =>
    rcases Program.next_cases hnext with
      ⟨t, k, s', a, rfl, hfree, hbegins, rfl⟩ | ⟨t, env, child, move, rfl, hstep, hafter⟩
    · rw [map_update]
      rcases h.call hfree hbegins with ⟨rfl, hsame⟩ | ⟨k', hbegins'⟩
      · rw [hsame, Function.update_eq_self t fun u => f (c.tasks u)]
        exact ih
      · exact reaches_call ih (h.free hfree) hbegins'
    · rw [Program.afterMove] at hafter
      rcases h.step hstep with hstep' | ⟨hspawned, hsame | ⟨hfree, k', hbegins⟩⟩
      · have hallows : (Discipline.free : Discipline Shared Task' Env Call').Allows (c.map f)
            (.run t env child) := ⟨trivial, fun _ _ => trivial⟩
        refine ih.step hallows ?_
        have hstep'' : q.step env (c.map f).shared ((c.map f).tasks t) =
            some ⟨move.shared, f move.task, move.spawned.map f⟩ := hstep'
        rw [Program.next, hstep'', Option.bind_some, Program.afterMove]
        rcases hspawned : move.spawned with _ | task
        · rw [hspawned] at hafter
          obtain rfl := Option.some.inj hafter
          rw [map_update]
          rfl
        · simp only [hspawned] at hafter
          split at hafter
          · next hchild =>
            obtain rfl := Option.some.inj hafter
            obtain ⟨hslot, hne⟩ : p.isFree (c.tasks child) = true ∧ child ≠ t := by
              simpa using hchild
            have hslot' : q.isFree ((c.map f).tasks child) = true := h.free hslot
            simp only [Option.map_some, hslot', hne, ne_eq, not_false_eq_true, decide_true,
              Bool.and_true, if_true]
            rw [map_update]
            congr 3
            exact (Function.comp_update f c.tasks t move.task).symm
          · cases hafter
      · rw [hspawned] at hafter
        obtain rfl := Option.some.inj hafter
        rw [map_update, hsame.1, hsame.2, Function.update_eq_self t fun u => f (c.tasks u)]
        exact ih
      · rw [hspawned] at hafter
        obtain rfl := Option.some.inj hafter
        rw [map_update]
        exact reaches_call ih hfree hbegins

end Simulates

end Tasks

end MeetilyLocal
