import MeetilyLocal.Library.Tasks

/-!
# Flags as locks

A flag in the shared state that a task acquires by finding it clear and setting it, and that the
task which acquired it clears again (`Guard`). Then at most one task holds it, and it is set
exactly while one does.
-/

namespace MeetilyLocal

namespace Tasks

variable {Shared Task Env Call : Type}

/-- A flag, and the points of the program at which a task holds it. -/
structure Guard (p : Program Shared Task Env Call) (flag : Shared → Bool) (holds : Task → Bool) :
    Prop where
  /-- a slot without a task does not hold it -/
  free {a : Task} : p.isFree a = true → holds a = false
  /-- a call does not touch it -/
  call {k : Call} {s s' : Shared} {a : Task} : p.begins k s = some (s', a) →
    flag s' = flag s ∧ holds a = false
  /-- a step leaves it alone, acquires it or releases it -/
  step {env : Env} {s : Shared} {a : Task} {move : Move Shared Task} :
    p.step env s a = some move →
    (flag move.shared = flag s ∧ holds move.task = holds a) ∨
    (flag s = false ∧ holds a = false ∧ flag move.shared = true ∧ holds move.task = true) ∨
    (holds a = true ∧ flag move.shared = false ∧ holds move.task = false)
  /-- what is spawned does not hold it -/
  spawn {env : Env} {s : Shared} {a child : Task} {move : Move Shared Task} :
    p.step env s a = some move → move.spawned = some child → holds child = false

namespace Guard

variable {p : Program Shared Task Env Call} {d : Discipline Shared Task Env Call}
  {flag : Shared → Bool} {holds : Task → Bool} {start c : Config Shared Task}

/-- The flag is set where a task holds it, and no two tasks do. -/
def assertions (flag : Shared → Bool) (holds : Task → Bool) : Assertions Shared Task where
  shared _ := True
  own s a := holds a = true → flag s = true
  pair a b := holds a = true → holds b = false

theorem stable (h : Guard p flag holds) :
    Assertions.Stable .trivial (assertions flag holds) p d where
  symm {a b} hpair hb := by
    rcases ha : holds a with _ | _
    · rfl
    · rw [hpair ha] at hb
      cases hb
  call _ _ hbegins := ⟨True.intro, fun ha => by rw [(h.call hbegins).2] at ha; cases ha⟩
  callBeside _ _ _ hown hbegins := by
    refine ⟨fun hb => (h.call hbegins).1 ▸ hown.2 hb, fun ha => ?_⟩
    rw [(h.call hbegins).2] at ha
    cases ha
  step {env s a move} htaken := by
    refine ⟨True.intro, fun hmoved => ?_⟩
    rcases h.step htaken.eq with ⟨hflag, hholds⟩ | ⟨-, -, hflag, -⟩ | ⟨-, -, hholds⟩
    · exact hflag ▸ htaken.own.2 (hholds ▸ hmoved)
    · exact hflag
    · rw [hholds] at hmoved
      cases hmoved
  beside {env s a b move} hbeside := by
    rcases h.step hbeside.eq with ⟨hflag, hholds⟩ | ⟨hclear, -, hflag, -⟩ | ⟨hheld, -, hholds⟩
    · refine ⟨fun hb => hflag ▸ hbeside.ownOther.2 hb, fun ha => ?_⟩
      exact hbeside.pair.2 (hholds ▸ ha)
    · -- another holder would have had the flag set
      refine ⟨fun _ => hflag, fun _ => ?_⟩
      rcases hb : holds b with _ | _
      · rfl
      · have hset := hbeside.ownOther.2 hb
        rw [hclear] at hset
        cases hset
    · refine ⟨fun hb => ?_, fun ha => ?_⟩
      · rw [hbeside.pair.2 hheld] at hb
        cases hb
      · rw [hholds] at ha
        cases ha
  spawn {env s a child move} htaken hspawned := by
    have hchild := h.spawn htaken.eq hspawned
    refine ⟨fun hc => ?_, fun _ => hchild⟩
    rw [hchild] at hc
    cases hc
  spawnBeside hbeside hspawned hc := by
    rw [h.spawn hbeside.eq hspawned] at hc
    cases hc

theorem hold (h : Guard p flag holds) (hstart : ∀ t, holds (start.tasks t) = false)
    (hreach : Reaches p d start c) : (assertions flag holds).Hold c := by
  refine h.stable.of_reaches (fun _ _ => Assertions.hold_trivial) ?_ hreach
  refine ⟨True.intro, fun t ht => ?_, fun t _ _ ht => ?_⟩
  · rw [hstart t] at ht
    cases ht
  · rw [hstart t] at ht
    cases ht

/-- A flag that is set is held. -/
theorem exists_holds (h : Guard p flag holds) (hstart : flag start.shared = false)
    (hreach : Reaches p d start c) (hflag : flag c.shared = true) :
    ∃ t, holds (c.tasks t) = true := by
  have habsent : Absent (fun _ => True) p d (fun a => holds a = true)
      (fun s => flag s = false) := {
    free := by
      intro a hfree hheld
      rw [h.free hfree] at hheld
      cases hheld
    call := fun _ _ hbegins _ hclear => (h.call hbegins).1 ▸ hclear
    stay := by
      intro c t child env move _ _ hstep _ hmoved hclear
      rcases h.step hstep with ⟨hsame, -⟩ | ⟨-, -, -, hheld⟩ | ⟨-, hcleared, -⟩
      · exact hsame ▸ hclear
      · exact absurd hheld hmoved
      · exact hcleared
    leave := by
      intro c t child env move _ _ hstep hheld hmoved _ _
      rcases h.step hstep with ⟨-, hsame⟩ | ⟨-, -, -, hheld'⟩ | ⟨-, hcleared, -⟩
      · exact absurd (hsame ▸ hheld) hmoved
      · exact absurd hheld' hmoved
      · exact hcleared }
  by_contra hnone
  have hclear := habsent.of_reaches (fun _ _ => True.intro) (fun _ => hstart) hreach
    (not_exists.mp hnone)
  rw [hclear] at hflag
  cases hflag

end Guard

end Tasks

end MeetilyLocal
