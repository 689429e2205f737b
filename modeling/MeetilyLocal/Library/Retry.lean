import Mathlib.Data.Nat.Basic
import Mathlib.Tactic.Common

/-!
# Bounded retries

An operation is tried again, up to a number of times, if it fails in a way that another attempt may
mend. Between two attempts there is a pause, in which the state may change under it and which may end
the whole.

What comes of it is what comes of one attempt, or of a pause that ended it, in a state that was reached
through attempts all of which failed so (`exists_last`). So an operation that changes nothing where it
fails is carried out at most once (`once`).
-/

namespace MeetilyLocal

universe u v w

/-- When an operation is tried again. -/
structure RetryPolicy (ε : Type u) (σ : Type v) : Type max u v where
  /-- another attempt may mend this failure -/
  retryable : ε → Bool
  /-- what happens behind the attempt with this number, and whether that ends the whole -/
  pause : ℕ → σ → Except ε Unit × σ

namespace RetryPolicy

variable {ε : Type u} {σ : Type v} {α : Type w}

/-- Try an operation, and up to `n` times again; the attempts have the numbers from `k` on. -/
def run (policy : RetryPolicy ε σ) (op : ℕ → σ → Except ε α × σ) : ℕ → ℕ → σ → Except ε α × σ
  | 0, k, s => op k s
  | n + 1, k, s =>
    match op k s with
    | (.error e, s') =>
      if policy.retryable e then
        match policy.pause k s' with
        | (.ok _, s'') => run policy op n (k + 1) s''
        | (.error e', s'') => (.error e', s'')
      else (.error e, s')
    | (.ok a, s') => (.ok a, s')

/-- An attempt that may be followed by another one: it fails so, and the pause behind it goes by. -/
def Passes (policy : RetryPolicy ε σ) (op : ℕ → σ → Except ε α × σ) (k : ℕ) (s s' : σ) : Prop :=
  ∃ e, (op k s).1 = .error e ∧ policy.retryable e = true ∧
    (policy.pause k (op k s).2).1 = .ok () ∧ s' = (policy.pause k (op k s).2).2

/-- A number of such attempts, one behind the other. -/
inductive PassesTo (policy : RetryPolicy ε σ) (op : ℕ → σ → Except ε α × σ) : ℕ → σ → ℕ → σ → Prop
  /-- none yet -/
  | refl (k : ℕ) (s : σ) : PassesTo policy op k s k s
  /-- one, and then the others -/
  | step {k j : ℕ} {s s' t : σ} : Passes policy op k s s' → PassesTo policy op (k + 1) s' j t →
      PassesTo policy op k s j t

/-- The attempt that the whole ends with, where the attempt with the number `last` is the last one. -/
inductive Ends (policy : RetryPolicy ε σ) (op : ℕ → σ → Except ε α × σ) (last k : ℕ) (s : σ) :
    Except ε α × σ → Prop
  /-- it succeeds, or fails in a way that no other attempt may mend, or is the last one -/
  | attempt : (∀ e, (op k s).1 = .error e → policy.retryable e = true → k = last) →
      Ends policy op last k s (op k s)
  /-- it fails, and the pause behind it ends the whole -/
  | paused {e e' : ε} : (op k s).1 = .error e → policy.retryable e = true →
      (policy.pause k (op k s).2).1 = .error e' →
      Ends policy op last k s (.error e', (policy.pause k (op k s).2).2)

variable {policy : RetryPolicy ε σ} {op : ℕ → σ → Except ε α × σ} {n k j : ℕ} {s t : σ}

/-- **What comes of it is what comes of one attempt**, behind others that failed. -/
theorem exists_last (policy : RetryPolicy ε σ) (op : ℕ → σ → Except ε α × σ) (n k : ℕ) (s : σ) :
    ∃ j t, k ≤ j ∧ j ≤ k + n ∧ PassesTo policy op k s j t ∧
      Ends policy op (k + n) j t (run policy op n k s) := by
  induction n generalizing k s with
  | zero => exact ⟨k, s, Nat.le_refl _, Nat.le_refl _, .refl k s, .attempt fun _ _ _ => rfl⟩
  | succ n ih =>
    rw [run]
    split
    next e s' hop =>
      have hfail : (op k s).1 = .error e := by rw [hop]
      have hleft : (op k s).2 = s' := by rw [hop]
      split
      next hretry =>
        split
        next u s'' hpause =>
          obtain ⟨j, t, hkj, hjn, hpass, hends⟩ := ih (k + 1) s''
          rw [Nat.add_right_comm] at hends
          refine ⟨j, t, by omega, by omega, .step ⟨e, hfail, hretry, ?_, ?_⟩ hpass, hends⟩
          · rw [hleft, hpause]
          · rw [hleft, hpause]
        next e' s'' hpause =>
          refine ⟨k, s, Nat.le_refl _, by omega, .refl k s, ?_⟩
          have hended : Ends policy op (k + (n + 1)) k s _ :=
            .paused hfail hretry (by rw [hleft, hpause])
          rwa [hleft, hpause] at hended
      next hretry =>
        refine ⟨k, s, Nat.le_refl _, by omega, .refl k s, ?_⟩
        rw [← hop]
        refine .attempt fun e' he' hretry' => absurd ?_ hretry
        rw [hfail] at he'
        rwa [Except.error.inj he']
    next a s' hop =>
      refine ⟨k, s, Nat.le_refl _, by omega, .refl k s, ?_⟩
      rw [← hop]
      refine .attempt fun e he => ?_
      rw [hop] at he
      cases he

/-- A first attempt that fails in a way that no other may mend is the only one. -/
theorem run_of_fatal {e : ε} (hop : op k s = (.error e, t)) (hfatal : policy.retryable e = false) :
    run policy op n k s = (.error e, t) := by
  cases n with
  | zero => exact hop
  | succ n => simp [run, hop, hfatal]

/-- What each attempt that may be followed by another one keeps, they all keep. -/
theorem PassesTo.induct {I : ℕ → σ → Prop} (h : PassesTo policy op k s j t)
    (hstep : ∀ k s s', I k s → Passes policy op k s s' → I (k + 1) s') (hI : I k s) : I j t := by
  induction h with
  | refl => exact hI
  | step hpass _ ih => exact ih (hstep _ _ _ hI hpass)

/-- An operation that changes nothing where it fails. -/
def Atomic (op : ℕ → σ → Except ε α × σ) : Prop :=
  ∀ k s e s', op k s = (.error e, s') → s' = s

/-- **An operation that changes nothing where it fails is carried out at most once**: if the whole
succeeds, as the last thing that happens, in a state that only pauses have led to; and if it fails, not
at all. -/
theorem once (policy : RetryPolicy ε σ) (hop : Atomic op) {I : ℕ → σ → Prop}
    (hpause : ∀ k s, I k s → I (k + 1) (policy.pause k s).2) (hI : I k s) :
    ∃ j t, I j t ∧
      ((∃ a, (run policy op n k s).1 = .ok a ∧ op j t = run policy op n k s) ∨
        ∃ e, (run policy op n k s).1 = .error e ∧ (run policy op n k s).2 = t) := by
  obtain ⟨j, t, -, -, hpass, hends⟩ := exists_last policy op n k s
  have hIt : I j t := by
    refine hpass.induct (fun k s s' hI hpasses => ?_) hI
    obtain ⟨e, hfail, -, -, rfl⟩ := hpasses
    rw [hop k s e (op k s).2 (Prod.ext hfail rfl)]
    exact hpause k s hI
  generalize run policy op n k s = result at hends ⊢
  cases hends with
  | attempt _ =>
    cases hlast : (op j t).1 with
    | ok a => exact ⟨j, t, hIt, .inl ⟨a, rfl, rfl⟩⟩
    | error e => exact ⟨j, t, hIt, .inr ⟨e, rfl, hop j t e _ (Prod.ext hlast rfl)⟩⟩
  | paused hfail hretry hended =>
    rw [hop j t _ (op j t).2 (Prod.ext hfail rfl)]
    exact ⟨j + 1, _, hpause j t hIt, .inr ⟨_, rfl, rfl⟩⟩

end RetryPolicy

end MeetilyLocal
