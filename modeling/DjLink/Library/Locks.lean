import Mathlib.Logic.Function.Basic

/-!
Exclusive locks. `owner` says of every lock which thread has it, `holds` what
each thread believes to hold. The two are consistent when they say the same; a
thread that takes a free lock and a thread that gives back one of its own keep
them so, and consistent threads exclude each other.
-/

namespace Locks

variable {τ μ : Type*}

def Consistent (holds : τ → μ → Prop) (owner : μ → Option τ) : Prop :=
  ∀ x m, holds x m ↔ owner m = some x

variable {holds holds' : τ → μ → Prop} {owner : μ → Option τ} {x y : τ} {m : μ}

/-- Mutual exclusion. -/
theorem Consistent.unique (h : Consistent holds owner) (hx : holds x m) (hy : holds y m) :
    x = y := by
  have hx := (h x m).mp hx
  have hy := (h y m).mp hy
  exact Option.some.inj (hx.symm.trans hy)

theorem Consistent.not_holds_of_free (h : Consistent holds owner) (hfree : owner m = none) :
    ¬ holds x m := by
  intro hx
  have howner := (h x m).mp hx
  rw [hfree] at howner
  cases howner

theorem Consistent.congr (h : Consistent holds owner) (hholds : ∀ x m, holds' x m ↔ holds x m) :
    Consistent holds' owner := by
  intro x m
  rw [hholds, h x m]

variable [DecidableEq μ]

theorem Consistent.take (h : Consistent holds owner) (hfree : owner m = none)
    (hholds : ∀ y n, holds' y n ↔ holds y n ∨ (y = x ∧ n = m)) :
    Consistent holds' (Function.update owner m (some x)) := by
  intro y n
  rw [hholds]
  by_cases hn : n = m
  · subst hn
    have hno : ¬ holds y n := h.not_holds_of_free hfree
    rw [Function.update_self]
    simp [hno, eq_comm]
  · rw [Function.update_of_ne hn, ← h y n]
    simp [hn]

theorem Consistent.give (h : Consistent holds owner) (hx : holds x m)
    (hholds : ∀ y n, holds' y n ↔ holds y n ∧ ¬ (y = x ∧ n = m)) :
    Consistent holds' (Function.update owner m none) := by
  intro y n
  rw [hholds]
  by_cases hn : n = m
  · subst hn
    have hown : holds y n → y = x := fun hy => h.unique hy hx
    rw [Function.update_self]
    simp only [and_true, reduceCtorEq, iff_false, not_and, not_not]
    exact hown
  · rw [Function.update_of_ne hn, ← h y n]
    simp [hn]

end Locks
