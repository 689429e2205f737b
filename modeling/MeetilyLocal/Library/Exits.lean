import Mathlib.Tactic.Common

/-!
# The exits of a program that can fail

A program over a state that returns or fails is a value of `EStateM`; one that fails keeps the
state it has got to. `Raises P x s` says that if `x` fails from `s` then `P` holds of what it
leaves. There is one rule for each way to build a program, and each rule is an equivalence, so that
a property of all the exits of a program is turned into what each of its parts has to do.
-/

namespace MeetilyLocal

namespace Exits

variable {ε σ α β γ : Type}

/-- If `x` fails from `s`, then `P` holds of the state it leaves. -/
def Raises (P : σ → Prop) (x : EStateM ε σ α) (s : σ) : Prop :=
  ∀ message s', x s = .error message s' → P s'

/-- Whether `x` returns or fails, what `view` reads of the state stays the same. -/
def Preserves (view : σ → γ) (x : EStateM ε σ α) : Prop :=
  ∀ s, (∀ a s', x s = .ok a s' → view s' = view s) ∧
    ∀ message s', x s = .error message s' → view s' = view s

/-- The value of a computation without a state, or its failure. -/
def lift (result : Except ε α) : EStateM ε σ α := fun s =>
  match result with
  | .ok a => .ok a s
  | .error message => .error message s

/-- Fail where the condition holds. -/
def failIf (condition : Bool) (message : ε) : EStateM ε σ Unit :=
  if condition then throw message else pure ()

variable {P : σ → Prop} {x : EStateM ε σ α} {f : α → EStateM ε σ β} {s s' : σ} {a : α} {message : ε}

theorem bind_of_ok (h : x s = .ok a s') : (x >>= f) s = f a s' := by
  simp [bind, EStateM.bind, h]

theorem bind_of_error (h : x s = .error message s') : (x >>= f) s = .error message s' := by
  simp [bind, EStateM.bind, h]

/-- A program that returns has no exit. -/
theorem raises_of_ok (h : x s = .ok a s') : Raises P x s := by
  intro message s'' hfail
  rw [h] at hfail
  cases hfail

/-- A program that fails has one. -/
theorem raises_iff_of_error (h : x s = .error message s') : Raises P x s ↔ P s' := by
  refine ⟨fun hraises => hraises message s' h, ?_⟩
  rintro hP message' s'' hfail
  rw [h] at hfail
  cases hfail
  exact hP

@[simp]
theorem raises_pure : Raises P (pure a : EStateM ε σ α) s := raises_of_ok rfl

@[simp]
theorem raises_throw : Raises P (throw message : EStateM ε σ α) s ↔ P s := raises_iff_of_error rfl

/-- **The exits of a sequence**: those of its first part, and where that returns those of the
rest. -/
theorem raises_bind : Raises P (x >>= f) s ↔
    Raises P x s ∧ ∀ a s', x s = .ok a s' → Raises P (f a) s' := by
  rcases h : x s with ⟨a, s'⟩ | ⟨message, s'⟩
  · have hbind := bind_of_ok (f := f) h
    constructor
    · intro hraises
      refine ⟨raises_of_ok h, ?_⟩
      rintro a' s'' hreturn message s''' hfail
      cases hreturn
      exact hraises message s''' (hbind.trans hfail)
    · rintro ⟨-, hrest⟩ message s'' hfail
      exact hrest a s' rfl message s'' (hbind.symm.trans hfail)
  · rw [raises_iff_of_error h, raises_iff_of_error (bind_of_error h)]
    exact ⟨fun hP => ⟨hP, nofun⟩, fun hboth => hboth.1⟩

theorem raises_bind_of_ok (h : x s = .ok a s') : Raises P (x >>= f) s ↔ Raises P (f a) s' := by
  rw [raises_bind]
  refine ⟨fun hboth => hboth.2 a s' h, fun hrest => ⟨raises_of_ok h, ?_⟩⟩
  rintro a' s'' hreturn
  rw [h] at hreturn
  cases hreturn
  exact hrest

theorem raises_bind_of_error (h : x s = .error message s') : Raises P (x >>= f) s ↔ P s' :=
  raises_iff_of_error (bind_of_error h)

/-- The exits of a sequence that starts with a computation without a state. -/
theorem raises_lift_bind {result : Except ε α} :
    Raises P (lift result >>= f) s ↔
      (∀ message, result = .error message → P s) ∧ ∀ a, result = .ok a → Raises P (f a) s := by
  cases result with
  | ok a =>
    rw [raises_bind_of_ok (show (lift (.ok a) : EStateM ε σ α) s = .ok a s from rfl)]
    simp
  | error message =>
    rw [raises_bind_of_error (show (lift (.error message) : EStateM ε σ α) s = .error message s
      from rfl)]
    simp

/-- The exits of a sequence that starts with a check. -/
theorem raises_failIf_bind {condition : Bool} {f : Unit → EStateM ε σ β} :
    Raises P (failIf condition message >>= f) s ↔
      (condition = true → P s) ∧ (condition = false → Raises P (f ()) s) := by
  cases condition with
  | true =>
    rw [raises_bind_of_error (show (failIf true message : EStateM ε σ Unit) s =
      .error message s from rfl)]
    simp
  | false =>
    rw [raises_bind_of_ok (show (failIf false message : EStateM ε σ Unit) s = .ok () s from rfl)]
    simp

/-! ## What stays the same -/

theorem preserves_lift {view : σ → γ} (result : Except ε α) :
    Preserves view (lift result : EStateM ε σ α) := by
  intro s
  cases result with
  | ok a => exact ⟨by rintro _ _ ⟨⟩; rfl, by rintro _ _ ⟨⟩⟩
  | error message => exact ⟨by rintro _ _ ⟨⟩, by rintro _ _ ⟨⟩; rfl⟩

theorem preserves_pure {view : σ → γ} : Preserves view (pure a : EStateM ε σ α) :=
  preserves_lift (.ok a)

theorem preserves_throw {view : σ → γ} : Preserves view (throw message : EStateM ε σ α) :=
  preserves_lift (.error message)

theorem preserves_failIf {view : σ → γ} {condition : Bool} :
    Preserves view (failIf condition message : EStateM ε σ Unit) := by
  cases condition
  · exact preserves_pure
  · exact preserves_throw

theorem Preserves.bind {view : σ → γ} (hx : Preserves view x) (hf : ∀ a, Preserves view (f a)) :
    Preserves view (x >>= f) := by
  intro s
  rcases h : x s with ⟨a, s'⟩ | ⟨message, s'⟩
  · rw [bind_of_ok h, ← (hx s).1 a s' h]
    exact hf a s'
  · rw [bind_of_error h, ← (hx s).2 message s' h]
    exact ⟨nofun, by rintro _ _ ⟨⟩; rfl⟩

/-- A sequence whose first part preserves what the exits should preserve. -/
theorem raises_bind_of_preserves {view : σ → γ} {c : γ} (hs : view s = c) (hx : Preserves view x)
    (hf : ∀ a s', view s' = c → Raises (fun s' => view s' = c) (f a) s') :
    Raises (fun s' => view s' = c) (x >>= f) s := by
  rw [raises_bind]
  constructor
  · intro message s' hfail
    exact ((hx s).2 message s' hfail).trans hs
  · intro a s' hreturn
    exact hf a s' (((hx s).1 a s' hreturn).trans hs)

end Exits

end MeetilyLocal
