import Mathlib.Data.List.Basic
import Mathlib.Data.Nat.Init
import Mathlib.Logic.Function.Basic
import Mathlib.Tactic.Common

/-!
# Tickets

A counter from which any number of holders take numbers: each number goes to one holder only, and a holder
has its numbers in increasing order (`Tickets.take`). Holders may forget the last of theirs
(`Tickets.forget`).
-/

namespace MeetilyLocal

/-- The numbers that the holders have taken. -/
structure Tickets (counter : ℕ) (held : ℕ → List ℕ) : Prop where
  /-- a holder has its numbers in increasing order -/
  increasing : ∀ k, (held k).Pairwise (· < ·)
  /-- the next number is new -/
  below : ∀ k, ∀ n ∈ held k, n < counter
  /-- no two holders have the same number -/
  apart : ∀ j k, j ≠ k → ∀ n ∈ held j, n ∉ held k

namespace Tickets

variable {counter : ℕ} {held : ℕ → List ℕ} {k : ℕ}

/-- Nobody has taken a number. -/
theorem none (counter : ℕ) : Tickets counter fun _ => [] where
  increasing _ := List.Pairwise.nil
  below _ _ hn := absurd hn List.not_mem_nil
  apart _ _ _ _ hn := absurd hn List.not_mem_nil

/-- A holder has forgotten the last of its numbers. -/
theorem forget (h : Tickets counter held) {kept : List ℕ} (hkept : kept <+: held k) :
    Tickets counter (Function.update held k kept) := by
  have hsubset : ∀ j, Function.update held k kept j ⊆ held j := by
    intro j
    obtain rfl | hne := eq_or_ne j k
    · rw [Function.update_self]
      exact hkept.subset
    · rw [Function.update_of_ne hne]
      exact List.Subset.refl _
  refine ⟨fun j => ?_, fun j n hn => h.below j n (hsubset j hn),
    fun i j hij n hi hj => h.apart i j hij n (hsubset i hi) (hsubset j hj)⟩
  obtain rfl | hne := eq_or_ne j k
  · rw [Function.update_self]
    exact (h.increasing j).sublist hkept.sublist
  · rw [Function.update_of_ne hne]
    exact h.increasing j

/-- **A holder has taken the next number.** -/
theorem take (h : Tickets counter held) (k : ℕ) :
    Tickets (counter + 1) (Function.update held k (held k ++ [counter])) := by
  have hmem : ∀ j n, n ∈ Function.update held k (held k ++ [counter]) j →
      n ∈ held j ∨ j = k ∧ n = counter := by
    intro j n hn
    obtain rfl | hne := eq_or_ne j k
    · rw [Function.update_self, List.mem_append, List.mem_singleton] at hn
      exact hn.imp_right fun hn => ⟨rfl, hn⟩
    · rw [Function.update_of_ne hne] at hn
      exact .inl hn
  refine ⟨fun j => ?_, fun j n hn => ?_, fun i j hij n hi hj => ?_⟩
  · obtain rfl | hne := eq_or_ne j k
    · rw [Function.update_self, List.pairwise_append]
      refine ⟨h.increasing j, List.pairwise_singleton _ _, fun n hn m hm => ?_⟩
      rw [List.mem_singleton.mp hm]
      exact h.below j n hn
    · rw [Function.update_of_ne hne]
      exact h.increasing j
  · obtain hold | ⟨-, rfl⟩ := hmem j n hn
    · exact Nat.lt_succ_of_lt (h.below j n hold)
    · exact Nat.lt_succ_self n
  · obtain hiold | ⟨hik, hn⟩ := hmem i n hi
    · obtain hjold | ⟨-, hn⟩ := hmem j n hj
      · exact h.apart i j hij n hiold hjold
      · exact absurd hn (Nat.ne_of_lt (h.below i n hiold))
    · obtain hjold | ⟨hjk, -⟩ := hmem j n hj
      · exact absurd hn (Nat.ne_of_lt (h.below j n hjold))
      · exact hij (hik.trans hjk.symm)

end Tickets

end MeetilyLocal
