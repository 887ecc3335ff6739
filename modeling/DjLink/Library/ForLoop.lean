import Mathlib.Logic.Function.Iterate
import Mathlib.Data.List.Range

/-!
Loops with a counter, `for (s = start; guard s; s = next s)`. A run with some
fuel lists the values of the counter, or has no outcome when the fuel is used
up; a loop that never ends has none with any fuel.
-/

namespace ForLoop

variable {σ : Type*}

def loop (guard : σ → Bool) (next : σ → σ) : ℕ → σ → Option (List σ)
  | 0, _ => none
  | fuel + 1, s => if guard s then (loop guard next fuel (next s)).map (s :: ·) else some []

variable {guard : σ → Bool} {next : σ → σ}

/-- The counters of a loop that is left after `n` rounds. -/
theorem loop_eq_some {n : ℕ} {s : σ} (hrounds : ∀ i < n, guard (next^[i] s) = true)
    (hleft : guard (next^[n] s) = false) :
    loop guard next (n + 1) s = some ((List.range n).map fun i => next^[i] s) := by
  induction n generalizing s with
  | zero =>
      have hguard : guard s = false := hleft
      simp [loop, hguard]
  | succ n ih =>
      have hguard : guard s = true := hrounds 0 (Nat.succ_pos n)
      have hrest := ih (fun i hi => hrounds (i + 1) (Nat.succ_lt_succ hi)) hleft
      rw [loop, if_pos hguard, hrest, List.range_succ_eq_map, List.map_cons, List.map_map]
      rfl

/-- More fuel changes nothing. -/
theorem loop_mono {n m : ℕ} (hle : n ≤ m) {s : σ} {l : List σ}
    (h : loop guard next n s = some l) : loop guard next m s = some l := by
  induction n generalizing m s l with
  | zero => cases h
  | succ n ih =>
      obtain ⟨m, rfl⟩ : ∃ k, m = k + 1 := ⟨m - 1, by omega⟩
      rw [loop] at h ⊢
      split
      next hguard =>
        rw [if_pos hguard] at h
        obtain ⟨rest, hrest, rfl⟩ := Option.map_eq_some_iff.mp h
        rw [ih (by omega) hrest]
        rfl
      next hguard =>
        rw [if_neg hguard] at h
        exact h

theorem loop_unique {n m : ℕ} {s : σ} {l l' : List σ} (h : loop guard next n s = some l)
    (h' : loop guard next m s = some l') : l = l' :=
  Option.some.inj ((loop_mono (Nat.le_max_left n m) h).symm.trans
    (loop_mono (Nat.le_max_right n m) h'))

/-- A loop whose guard holds of every counter does not end. -/
theorem loop_eq_none {s : σ} (hguard : ∀ i, guard (next^[i] s) = true) (fuel : ℕ) :
    loop guard next fuel s = none := by
  induction fuel generalizing s with
  | zero => rfl
  | succ fuel ih =>
      have hnext := ih fun i => hguard (i + 1)
      rw [loop, if_pos (show guard s = true from hguard 0), hnext]
      rfl

end ForLoop
