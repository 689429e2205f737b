import Mathlib.Logic.Function.Basic
import Mathlib.Tactic.Common

/-!
# Tasks over a shared state

Any number of tasks run a program over a shared state and are interleaved in any order. A step of
one task is atomic; where the program may be interrupted is where one of its steps ends. A task
that waits has no step. New tasks come from outside (`Label.call`) or are spawned by others.

Runs can be restricted to those in which each step obeys a condition on the state before it, the
task that takes it and each of the other tasks (`Discipline`). Invariants are stated as assertions
about the shared state, about each task and about each two tasks; `Assertions.Stable` says what is
to be checked of one step for them to hold throughout a run (`Assertions.Stable.of_reaches`), given
others that do. `Absent` is for facts about the shared state that hold while no task is at certain
points, as a flag is clear while no task holds it.
-/

namespace MeetilyLocal

namespace Tasks

variable {Shared Task Env Call : Type}

/-- What one step of a task does. -/
structure Move (Shared Task : Type) : Type where
  /-- the shared state after it -/
  shared : Shared
  /-- where the task is after it -/
  task : Task
  /-- the task it spawned, if any -/
  spawned : Option Task

/-- A program for tasks. -/
structure Program (Shared Task Env Call : Type) : Type where
  /-- the slot of a task that does not exist -/
  isFree : Task → Bool
  /-- how a call from outside begins, if it can -/
  begins : Call → Shared → Option (Shared × Task)
  /-- one step of a task, none if it waits or has finished -/
  step : Env → Shared → Task → Option (Move Shared Task)

/-- The shared state and all tasks. -/
structure Config (Shared Task : Type) : Type where
  /-- the shared state -/
  shared : Shared
  /-- the tasks by number -/
  tasks : ℕ → Task

/-- What happens next. -/
inductive Label (Env Call : Type) : Type where
  /-- a call begins as a new task with the given number -/
  | call : ℕ → Call → Label Env Call
  /-- a task takes a step; what it spawns gets the second number -/
  | run : ℕ → Env → ℕ → Label Env Call

namespace Program

/-- The configuration after a task took a step. -/
def afterMove (p : Program Shared Task Env Call) (c : Config Shared Task) (t child : ℕ)
    (move : Move Shared Task) : Option (Config Shared Task) :=
  match move.spawned with
  | none => some ⟨move.shared, Function.update c.tasks t move.task⟩
  | some task =>
    if p.isFree (c.tasks child) && decide (child ≠ t) then
      some ⟨move.shared, Function.update (Function.update c.tasks t move.task) child task⟩
    else none

/-- The next configuration. -/
def next (p : Program Shared Task Env Call) (c : Config Shared Task) :
    Label Env Call → Option (Config Shared Task)
  | .call t call =>
    if p.isFree (c.tasks t) then
      (p.begins call c.shared).map fun begun => ⟨begun.1, Function.update c.tasks t begun.2⟩
    else none
  | .run t env child => (p.step env c.shared (c.tasks t)).bind (p.afterMove c t child)

/-- The configuration after a list of labels, none if one of them cannot happen. -/
def runAll (p : Program Shared Task Env Call) (c : Config Shared Task) :
    List (Label Env Call) → Option (Config Shared Task)
  | [] => some c
  | label :: labels => (p.next c label).bind fun c' => p.runAll c' labels

/-- What the next configuration is. -/
theorem next_cases {p : Program Shared Task Env Call} {c c' : Config Shared Task}
    {label : Label Env Call} (h : p.next c label = some c') :
    (∃ t call shared task, label = .call t call ∧ p.isFree (c.tasks t) = true ∧
      p.begins call c.shared = some (shared, task) ∧
      c' = ⟨shared, Function.update c.tasks t task⟩) ∨
    (∃ t env child move, label = .run t env child ∧
      p.step env c.shared (c.tasks t) = some move ∧ p.afterMove c t child move = some c') := by
  rcases label with ⟨t, call⟩ | ⟨t, env, child⟩
  · rw [next] at h
    split at h
    · next hfree =>
      obtain ⟨⟨shared, task⟩, hbegins, rfl⟩ := Option.map_eq_some_iff.mp h
      exact Or.inl ⟨t, call, shared, task, rfl, hfree, hbegins, rfl⟩
    · cases h
  · obtain ⟨move, hstep, hafter⟩ := Option.bind_eq_some_iff.mp h
    exact Or.inr ⟨t, env, child, move, rfl, hstep, hafter⟩

/-- Where the tasks are after a step. -/
theorem afterMove_cases {p : Program Shared Task Env Call} {c c' : Config Shared Task}
    {t child : ℕ} {move : Move Shared Task} (h : p.afterMove c t child move = some c') :
    c'.shared = move.shared ∧ c'.tasks t = move.task ∧
      ∀ u ≠ t, c'.tasks u = c.tasks u ∨ (move.spawned = some (c'.tasks u) ∧ u = child) := by
  rw [afterMove] at h
  split at h
  · cases h
    exact ⟨rfl, Function.update_self _ _ _, fun u hu => Or.inl (Function.update_of_ne hu _ _)⟩
  · next task hspawned =>
    split at h
    · next hchild =>
      cases h
      obtain ⟨-, hne⟩ : p.isFree (c.tasks child) = true ∧ child ≠ t := by simpa using hchild
      refine ⟨rfl, by simp [hne.symm], fun u hu => ?_⟩
      rcases eq_or_ne u child with rfl | huchild
      · exact Or.inr ⟨by simp [hspawned], rfl⟩
      · exact Or.inl (by simp [huchild, hu])
    · cases h

/-- What is true of no task after a step was true of none before it, but maybe of the task that
took it. -/
theorem not_of_afterMove {p : Program Shared Task Env Call} {c c' : Config Shared Task}
    {t child : ℕ} {move : Move Shared Task} {busy : Task → Prop}
    (h : p.afterMove c t child move = some c') (hfree : ∀ a, p.isFree a = true → ¬busy a)
    (hidle : ∀ u, ¬busy (c'.tasks u)) :
    (∀ u ≠ t, ¬busy (c.tasks u)) ∧ ∀ task, move.spawned = some task → ¬busy task := by
  rw [afterMove] at h
  split at h
  · next hspawned =>
    cases h
    refine ⟨fun u hu => by simpa [hu] using hidle u, fun task htask => ?_⟩
    rw [hspawned] at htask
    cases htask
  · next task hspawned =>
    split at h
    · next hchild =>
      cases h
      obtain ⟨hslot, -⟩ : p.isFree (c.tasks child) = true ∧ child ≠ t := by simpa using hchild
      refine ⟨fun u hu => ?_, fun task' htask => ?_⟩
      · rcases eq_or_ne u child with rfl | huchild
        · exact hfree _ hslot
        · simpa [hu, huchild] using hidle u
      · rw [hspawned, Option.some.injEq] at htask
        simpa [htask] using hidle child
    · cases h

end Program

/-! ## Disciplined runs -/

/-- A condition on calls and steps. -/
structure Discipline (Shared Task Env Call : Type) : Type where
  /-- when a call may begin -/
  call : Call → Shared → Prop
  /-- beside which other tasks it may begin -/
  callBeside : Call → Task → Prop
  /-- when a task may take a step -/
  step : Env → Shared → Task → Prop
  /-- beside which other tasks it may take it -/
  stepBeside : Env → Shared → Task → Task → Prop

namespace Discipline

/-- Everything may happen at any time. -/
def free : Discipline Shared Task Env Call where
  call _ _ := True
  callBeside _ _ := True
  step _ _ _ := True
  stepBeside _ _ _ _ := True

instance (k : Call) (s : Shared) :
    Decidable ((free : Discipline Shared Task Env Call).call k s) :=
  inferInstanceAs (Decidable True)

instance (k : Call) (b : Task) :
    Decidable ((free : Discipline Shared Task Env Call).callBeside k b) :=
  inferInstanceAs (Decidable True)

instance (env : Env) (s : Shared) (a : Task) :
    Decidable ((free : Discipline Shared Task Env Call).step env s a) :=
  inferInstanceAs (Decidable True)

instance (env : Env) (s : Shared) (a b : Task) :
    Decidable ((free : Discipline Shared Task Env Call).stepBeside env s a b) :=
  inferInstanceAs (Decidable True)

/-- What happens obeys the condition. -/
def Allows (d : Discipline Shared Task Env Call) (c : Config Shared Task) :
    Label Env Call → Prop
  | .call t call => d.call call c.shared ∧ ∀ u ≠ t, d.callBeside call (c.tasks u)
  | .run t env _ =>
    d.step env c.shared (c.tasks t) ∧ ∀ u ≠ t, d.stepBeside env c.shared (c.tasks t) (c.tasks u)

end Discipline

/-- The configurations that runs under a discipline reach. -/
inductive Reaches (p : Program Shared Task Env Call) (d : Discipline Shared Task Env Call)
    (start : Config Shared Task) : Config Shared Task → Prop where
  /-- where they start -/
  | refl : Reaches p d start start
  /-- one step further -/
  | step {c c' : Config Shared Task} {label : Label Env Call} :
      Reaches p d start c → d.Allows c label → p.next c label = some c' → Reaches p d start c'

/-- A run as a list of labels reaches its end. -/
theorem Reaches.of_runAll {p : Program Shared Task Env Call} {start c c' : Config Shared Task}
    {labels : List (Label Env Call)} (h : Reaches p .free start c)
    (hrun : p.runAll c labels = some c') : Reaches p .free start c' := by
  induction labels generalizing c with
  | nil => exact Option.some.inj hrun ▸ h
  | cons label labels ih =>
    obtain ⟨c'', hnext, hrest⟩ := Option.bind_eq_some_iff.mp hrun
    refine ih (h.step ?_ hnext) hrest
    cases label with
    | call => exact ⟨trivial, fun _ _ => trivial⟩
    | run => exact ⟨trivial, fun _ _ => trivial⟩

/-! ### Runs that are checked as they are made -/

section RunBelow

variable (p : Program Shared Task Env Call) (d : Discipline Shared Task Env Call)
  [∀ k s, Decidable (d.call k s)] [∀ k b, Decidable (d.callBeside k b)]
  [∀ env s a, Decidable (d.step env s a)] [∀ env s a b, Decidable (d.stepBeside env s a b)]

/-- What happens obeys the discipline, as far as the first `n` tasks are concerned. -/
def Discipline.allowsBelow (n : ℕ) (c : Config Shared Task) : Label Env Call → Bool
  | .call t k => decide (t < n) && decide (d.call k c.shared) &&
      decide (∀ u < n, u ≠ t → d.callBeside k (c.tasks u))
  | .run t env child => decide (t < n) && decide (child < n) &&
      decide (d.step env c.shared (c.tasks t)) &&
      decide (∀ u < n, u ≠ t → d.stepBeside env c.shared (c.tasks t) (c.tasks u))

/-- The configuration after a list of labels of the first `n` tasks, none if one of them cannot
happen or is not allowed. -/
def Program.runBelow (n : ℕ) (c : Config Shared Task) :
    List (Label Env Call) → Option (Config Shared Task)
  | [] => some c
  | label :: labels =>
    if d.allowsBelow n c label then (p.next c label).bind fun c' => runBelow n c' labels else none

variable {p d} {n : ℕ} {idle : Task} {start c c' : Config Shared Task}

/-- Where all other slots are idle, it is enough to look at the first ones. -/
theorem Discipline.allows_of_allowsBelow {label : Label Env Call}
    (hcall : ∀ k, d.callBeside k idle) (hstep : ∀ env s a, d.stepBeside env s a idle)
    (hidle : ∀ u, n ≤ u → c.tasks u = idle) (h : d.allowsBelow n c label = true) :
    d.Allows c label := by
  cases label with
  | call t k =>
    simp only [allowsBelow, Bool.and_eq_true, decide_eq_true_eq] at h
    obtain ⟨⟨-, hk⟩, hbeside⟩ := h
    refine ⟨hk, fun u hu => ?_⟩
    rcases Nat.lt_or_ge u n with hlt | hge
    · exact hbeside u hlt hu
    · exact hidle u hge ▸ hcall k
  | run t env child =>
    simp only [allowsBelow, Bool.and_eq_true, decide_eq_true_eq] at h
    obtain ⟨⟨-, hs⟩, hbeside⟩ := h
    refine ⟨hs, fun u hu => ?_⟩
    rcases Nat.lt_or_ge u n with hlt | hge
    · exact hbeside u hlt hu
    · exact hidle u hge ▸ hstep env c.shared (c.tasks t)

/-- The other slots stay as they are. -/
theorem Program.tasks_of_allowsBelow {label : Label Env Call} {u : ℕ} (hu : n ≤ u)
    (h : d.allowsBelow n c label = true) (hnext : p.next c label = some c') :
    c'.tasks u = c.tasks u := by
  rcases next_cases hnext with
    ⟨t, k, shared, task, rfl, -, -, rfl⟩ | ⟨t, env, child, move, rfl, -, hafter⟩
  · simp only [Discipline.allowsBelow, Bool.and_eq_true, decide_eq_true_eq] at h
    obtain ⟨⟨ht, -⟩, -⟩ := h
    exact Function.update_of_ne (by lia) _ _
  · simp only [Discipline.allowsBelow, Bool.and_eq_true, decide_eq_true_eq] at h
    obtain ⟨⟨⟨ht, hchild⟩, -⟩, -⟩ := h
    obtain ⟨-, -, hothers⟩ := afterMove_cases hafter
    rcases hothers u (by lia) with hsame | ⟨-, rfl⟩
    · exact hsame
    · lia

/-- Nor does a run change them. -/
theorem Program.tasks_of_runBelow {labels : List (Label Env Call)} {u : ℕ} (hu : n ≤ u)
    (hrun : p.runBelow d n c labels = some c') : c'.tasks u = c.tasks u := by
  induction labels generalizing c with
  | nil => exact Option.some.inj hrun ▸ rfl
  | cons label labels ih =>
    rw [Program.runBelow] at hrun
    split at hrun
    · next hallowed =>
      obtain ⟨c'', hnext, hrest⟩ := Option.bind_eq_some_iff.mp hrun
      exact (ih hrest).trans (Program.tasks_of_allowsBelow hu hallowed hnext)
    · cases hrun

/-- What is true of the first tasks after a run, and was true of the others before it, is true of
all. -/
theorem Program.forall_of_runBelow {labels : List (Label Env Call)} {P : Task → Prop}
    (hrun : p.runBelow d n c labels = some c') (hrest : ∀ u, n ≤ u → P (c.tasks u))
    (h : ∀ u < n, P (c'.tasks u)) (u : ℕ) : P (c'.tasks u) := by
  rcases Nat.lt_or_ge u n with hlt | hge
  · exact h u hlt
  · rw [Program.tasks_of_runBelow hge hrun]
    exact hrest u hge

/-- Where the first tasks are idle after a run, all are. -/
theorem Program.idle_of_runBelow {labels : List (Label Env Call)} {busy : Task → Bool}
    (hrun : p.runBelow d n c labels = some c') (hrest : ∀ u, n ≤ u → busy (c.tasks u) = false)
    (h : ((List.range n).all fun u => !busy (c'.tasks u)) = true) (u : ℕ) :
    busy (c'.tasks u) = false := by
  refine Program.forall_of_runBelow (P := fun a => busy a = false) hrun hrest (fun u hu => ?_) u
  simpa using List.all_eq_true.mp h u (List.mem_range.mpr hu)

/-- A run that was checked reaches its end. -/
theorem Reaches.of_runBelow {labels : List (Label Env Call)} (hcall : ∀ k, d.callBeside k idle)
    (hstep : ∀ env s a, d.stepBeside env s a idle) (hidle : ∀ u, n ≤ u → c.tasks u = idle)
    (h : Reaches p d start c) (hrun : p.runBelow d n c labels = some c') : Reaches p d start c' := by
  induction labels generalizing c with
  | nil => exact Option.some.inj hrun ▸ h
  | cons label labels ih =>
    rw [Program.runBelow] at hrun
    split at hrun
    · next hallowed =>
      obtain ⟨c'', hnext, hrest⟩ := Option.bind_eq_some_iff.mp hrun
      refine ih (fun u hu => ?_) (h.step ?_ hnext) hrest
      · rw [Program.tasks_of_allowsBelow hu hallowed hnext, hidle u hu]
      · exact Discipline.allows_of_allowsBelow hcall hstep hidle hallowed
    · cases hrun

/-- All steps of it are allowed where nothing is asked of them. -/
theorem Reaches.of_runBelow_free {labels : List (Label Env Call)}
    (hidle : ∀ u, n ≤ u → start.tasks u = idle) (hrun : p.runBelow .free n start labels = some c) :
    Reaches p .free start c :=
  .of_runBelow (fun _ => trivial) (fun _ _ _ => trivial) hidle .refl hrun

/-- A run that was checked, and what was looked at where it ends. -/
theorem Reaches.exists_of_runBelow {labels : List (Label Env Call)}
    {check : Config Shared Task → Bool} (hcall : ∀ k, d.callBeside k idle)
    (hstep : ∀ env s a, d.stepBeside env s a idle) (hidle : ∀ u, n ≤ u → start.tasks u = idle)
    (h : (p.runBelow d n start labels).any check = true) :
    ∃ c, p.runBelow d n start labels = some c ∧ Reaches p d start c ∧ check c = true := by
  obtain ⟨c, hrun, hcheck⟩ := (Option.any_eq_true check _).mp h
  exact ⟨c, hrun, .of_runBelow hcall hstep hidle .refl hrun, hcheck⟩

end RunBelow

/-! ## Invariants -/

/-- Assertions about a configuration. -/
structure Assertions (Shared Task : Type) : Type where
  /-- what holds of the shared state -/
  shared : Shared → Prop
  /-- what holds where a task is -/
  own : Shared → Task → Prop
  /-- where two tasks can be -/
  pair : Task → Task → Prop

namespace Assertions

variable {p : Program Shared Task Env Call} {d : Discipline Shared Task Env Call}
  {base inv : Assertions Shared Task} {start c c' : Config Shared Task} {label : Label Env Call}

/-- They hold. -/
structure Hold (inv : Assertions Shared Task) (c : Config Shared Task) : Prop where
  /-- of the shared state -/
  shared : inv.shared c.shared
  /-- of each task -/
  own : ∀ t, inv.own c.shared (c.tasks t)
  /-- of each two tasks -/
  pair : ∀ t u, t ≠ u → inv.pair (c.tasks t) (c.tasks u)

/-- Nothing is asserted. -/
def trivial : Assertions Shared Task := ⟨fun _ => True, fun _ _ => True, fun _ _ => True⟩

theorem hold_trivial : (trivial : Assertions Shared Task).Hold c :=
  ⟨True.intro, fun _ => True.intro, fun _ _ _ => True.intro⟩

/-- Both are asserted. -/
def and (inv inv' : Assertions Shared Task) : Assertions Shared Task where
  shared s := inv.shared s ∧ inv'.shared s
  own s a := inv.own s a ∧ inv'.own s a
  pair a b := inv.pair a b ∧ inv'.pair a b

theorem Hold.and {inv' : Assertions Shared Task} (h : inv.Hold c) (h' : inv'.Hold c) :
    (inv.and inv').Hold c :=
  ⟨⟨h.shared, h'.shared⟩, fun t => ⟨h.own t, h'.own t⟩,
    fun t u htu => ⟨h.pair t u htu, h'.pair t u htu⟩⟩

/-- A step that a discipline allows where assertions hold. -/
structure Taken (inv : Assertions Shared Task) (p : Program Shared Task Env Call)
    (d : Discipline Shared Task Env Call) (env : Env) (s : Shared) (a : Task)
    (move : Move Shared Task) : Prop where
  /-- it is allowed -/
  allowed : d.step env s a
  /-- what held of the shared state -/
  shared : inv.shared s
  /-- what held where the task was -/
  own : inv.own s a
  /-- the step -/
  eq : p.step env s a = some move

/-- Such a step beside another task. -/
structure Beside (inv : Assertions Shared Task) (p : Program Shared Task Env Call)
    (d : Discipline Shared Task Env Call) (env : Env) (s : Shared) (a : Task)
    (move : Move Shared Task) (b : Task) : Prop extends Taken inv p d env s a move where
  /-- it is allowed beside the other task -/
  allowedBeside : d.stepBeside env s a b
  /-- what held where the other task is -/
  ownOther : inv.own s b
  /-- what held of the two tasks -/
  pair : inv.pair a b

/-- Assertions that each call and step keeps, given that others hold. -/
structure Stable (base inv : Assertions Shared Task) (p : Program Shared Task Env Call)
    (d : Discipline Shared Task Env Call) : Prop where
  /-- two tasks are compared in either order -/
  symm {a b : Task} : inv.pair a b → inv.pair b a
  /-- what a call establishes -/
  call {k : Call} {s s' : Shared} {a : Task} : d.call k s → (base.and inv).shared s →
    p.begins k s = some (s', a) → inv.shared s' ∧ inv.own s' a
  /-- what a call keeps for another task -/
  callBeside {k : Call} {s s' : Shared} {a b : Task} : d.call k s → d.callBeside k b →
    (base.and inv).shared s → (base.and inv).own s b → p.begins k s = some (s', a) →
    inv.own s' b ∧ inv.pair a b
  /-- what a step establishes -/
  step {env : Env} {s : Shared} {a : Task} {move : Move Shared Task} :
    (base.and inv).Taken p d env s a move → inv.shared move.shared ∧ inv.own move.shared move.task
  /-- what a step keeps for another task -/
  beside {env : Env} {s : Shared} {a b : Task} {move : Move Shared Task} :
    (base.and inv).Beside p d env s a move b → inv.own move.shared b ∧ inv.pair move.task b
  /-- what a step establishes for the task it spawns -/
  spawn {env : Env} {s : Shared} {a child : Task} {move : Move Shared Task} :
    (base.and inv).Taken p d env s a move → move.spawned = some child →
    inv.own move.shared child ∧ inv.pair move.task child
  /-- where a task can be beside one that is spawned -/
  spawnBeside {env : Env} {s : Shared} {a b child : Task} {move : Move Shared Task} :
    (base.and inv).Beside p d env s a move b → move.spawned = some child → inv.pair child b

/-- One step keeps stable assertions. -/
theorem Stable.next (hstable : Stable base inv p d) (hbase : base.Hold c) (hinv : inv.Hold c)
    (hallow : d.Allows c label) (hnext : p.next c label = some c') : inv.Hold c' := by
  have h := hbase.and hinv
  rcases Program.next_cases hnext with
    ⟨t, call, shared, task, rfl, -, hbegins, rfl⟩ | ⟨t, env, child, move, rfl, hstep, hafter⟩
  · obtain ⟨hcall, hbeside⟩ := hallow
    obtain ⟨hshared, htask⟩ := hstable.call hcall h.shared hbegins
    have hother : ∀ u ≠ t, inv.own shared (c.tasks u) ∧ inv.pair task (c.tasks u) :=
      fun u hu => hstable.callBeside hcall (hbeside u hu) h.shared (h.own u) hbegins
    refine ⟨hshared, fun u => ?_, fun u v huv => ?_⟩
    · rcases eq_or_ne u t with rfl | hu
      · simpa using htask
      · simpa [hu] using (hother u hu).1
    · rcases eq_or_ne u t with rfl | hu
      · simpa [huv.symm] using (hother v huv.symm).2
      · rcases eq_or_ne v t with rfl | hv
        · simpa [hu] using hstable.symm (hother u hu).2
        · simpa [hu, hv] using hinv.pair u v huv
  · obtain ⟨hallowed, hbeside⟩ := hallow
    obtain ⟨hshared, htask, hothers⟩ := Program.afterMove_cases hafter
    have htaken : (base.and inv).Taken p d env c.shared (c.tasks t) move :=
      ⟨hallowed, h.shared, h.own t, hstep⟩
    have hseen : ∀ u ≠ t, (base.and inv).Beside p d env c.shared (c.tasks t) move (c.tasks u) :=
      fun u hu => ⟨htaken, hbeside u hu, h.own u, h.pair t u hu.symm⟩
    have hpair : ∀ u ≠ t, inv.pair (c'.tasks t) (c'.tasks u) := by
      intro u hu
      rw [htask]
      rcases hothers u hu with hsame | ⟨hspawned, -⟩
      · exact hsame ▸ (hstable.beside (hseen u hu)).2
      · exact (hstable.spawn htaken hspawned).2
    refine ⟨hshared ▸ (hstable.step htaken).1, fun u => ?_, fun u v huv => ?_⟩
    · rw [hshared]
      rcases eq_or_ne u t with rfl | hu
      · exact htask ▸ (hstable.step htaken).2
      · rcases hothers u hu with hsame | ⟨hspawned, -⟩
        · exact hsame ▸ (hstable.beside (hseen u hu)).1
        · exact (hstable.spawn htaken hspawned).1
    · rcases eq_or_ne u t with rfl | hu
      · exact hpair v huv.symm
      rcases eq_or_ne v t with rfl | hv
      · exact hstable.symm (hpair u hu)
      rcases hothers u hu with hu' | ⟨huchild, rfl⟩
      · rcases hothers v hv with hv' | ⟨hvchild, -⟩
        · exact hu' ▸ hv' ▸ hinv.pair u v huv
        · exact hstable.symm (hu' ▸ hstable.spawnBeside (hseen u hu) hvchild)
      · rcases hothers v hv with hv' | ⟨-, rfl⟩
        · exact hv' ▸ hstable.spawnBeside (hseen v hv) huchild
        · exact absurd rfl huv

/-- **Invariants.** Stable assertions that hold at the start hold throughout. -/
theorem Stable.of_reaches (hstable : Stable base inv p d)
    (hbase : ∀ c, Reaches p d start c → base.Hold c) (hstart : inv.Hold start)
    (h : Reaches p d start c) : inv.Hold c := by
  induction h with
  | refl => exact hstart
  | step hreach hallow hnext ih => exact hstable.next (hbase _ hreach) ih hallow hnext

end Assertions

/-! ## Facts that hold while no task is busy -/

/-- What is to be checked of one step for a fact `Q` about the shared state to hold whenever no
task is `busy`, given what is `known` of configurations. -/
structure Absent (known : Config Shared Task → Prop) (p : Program Shared Task Env Call)
    (d : Discipline Shared Task Env Call) (busy : Task → Prop) (Q : Shared → Prop) : Prop where
  /-- a slot without a task is not busy -/
  free {a : Task} : p.isFree a = true → ¬busy a
  /-- a call that is not busy keeps the fact -/
  call {c : Config Shared Task} {t : ℕ} {k : Call} {s' : Shared} {a : Task} : known c →
    d.Allows c (.call t k) → p.begins k c.shared = some (s', a) → ¬busy a → Q c.shared → Q s'
  /-- a task that is not busy keeps the fact -/
  stay {c : Config Shared Task} {t child : ℕ} {env : Env} {move : Move Shared Task} : known c →
    d.Allows c (.run t env child) → p.step env c.shared (c.tasks t) = some move →
    ¬busy (c.tasks t) → ¬busy move.task → Q c.shared → Q move.shared
  /-- the last busy task leaves the fact behind -/
  leave {c : Config Shared Task} {t child : ℕ} {env : Env} {move : Move Shared Task} : known c →
    d.Allows c (.run t env child) → p.step env c.shared (c.tasks t) = some move →
    busy (c.tasks t) → ¬busy move.task → (∀ u ≠ t, ¬busy (c.tasks u)) →
    (∀ spawned, move.spawned = some spawned → ¬busy spawned) → Q move.shared

/-- A fact that holds whenever no task is busy. -/
theorem Absent.of_reaches {known : Config Shared Task → Prop} {p : Program Shared Task Env Call}
    {d : Discipline Shared Task Env Call} {start c : Config Shared Task} {busy : Task → Prop}
    {Q : Shared → Prop} (habsent : Absent known p d busy Q)
    (hknown : ∀ c, Reaches p d start c → known c)
    (hQ : (∀ t, ¬busy (start.tasks t)) → Q start.shared)
    (h : Reaches p d start c) (hidle : ∀ t, ¬busy (c.tasks t)) : Q c.shared := by
  induction h with
  | refl => exact hQ hidle
  | @step c c' label hreach hallow hnext ih =>
    rcases Program.next_cases hnext with
      ⟨t, call, shared, task, rfl, hslot, hbegins, rfl⟩ | ⟨t, env, child, move, rfl, hstep, hafter⟩
    · have htask : ¬busy task := by simpa using hidle t
      refine habsent.call (hknown c hreach) hallow hbegins htask (ih fun u => ?_)
      rcases eq_or_ne u t with rfl | hu
      · exact habsent.free hslot
      · simpa [hu] using hidle u
    · obtain ⟨hshared, htask, -⟩ := Program.afterMove_cases hafter
      obtain ⟨hbefore, hchild⟩ := Program.not_of_afterMove hafter (fun _ => habsent.free) hidle
      have hmoved : ¬busy move.task := htask ▸ hidle t
      rw [hshared]
      rcases em (busy (c.tasks t)) with hbusy | hidle'
      · exact habsent.leave (hknown c hreach) hallow hstep hbusy hmoved hbefore hchild
      · refine habsent.stay (hknown c hreach) hallow hstep hidle' hmoved (ih fun u => ?_)
        rcases eq_or_ne u t with rfl | hu
        · exact hidle'
        · exact hbefore u hu

end Tasks

end MeetilyLocal
