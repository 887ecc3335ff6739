import Mathlib.Algebra.Order.BigOperators.Group.List
import Mathlib.Algebra.Order.Ring.Int
import Mathlib.Data.List.Induction

/-!
Counting with a floor at zero. A counter that never goes below zero is not
less than the plain sum of its changes, and is that sum exactly when the sum
never went below zero on the way. Changes that all go up and then all go down
are clamped at most once, at the end.
-/

namespace Clamped

/-- `c = std::max(0, c + d)`. -/
def add (c d : Int) : Int := max 0 (c + d)

theorem add_nonneg (c d : Int) : 0 ≤ add c d := Int.le_max_left ..

theorem foldl_add_nonneg {c : Int} (hc : 0 ≤ c) (ds : List Int) : 0 ≤ ds.foldl add c := by
  induction ds using List.reverseRecOn with
  | nil => exact hc
  | append_singleton ds d ih =>
      rw [List.foldl_concat]
      exact add_nonneg ..

theorem sum_le_foldl_add (c : Int) (ds : List Int) : c + ds.sum ≤ ds.foldl add c := by
  induction ds using List.reverseRecOn with
  | nil => simp
  | append_singleton ds d ih =>
      rw [List.foldl_concat, List.sum_append, List.sum_singleton, add]
      omega

/-- The counter is the sum exactly when the sum never fell below zero. -/
theorem foldl_add_eq_iff {c : Int} (hc : 0 ≤ c) (ds : List Int) :
    ds.foldl add c = c + ds.sum ↔ ∀ before after, ds = before ++ after → 0 ≤ c + before.sum := by
  induction ds using List.reverseRecOn with
  | nil =>
      refine iff_of_true (by simp) fun before after h => ?_
      obtain ⟨rfl, -⟩ : before = [] ∧ after = [] := by simpa using h.symm
      simpa using hc
  | append_singleton ds d ih =>
      have hle := sum_le_foldl_add c ds
      rw [List.foldl_concat, List.sum_append, List.sum_singleton, add]
      constructor
      · intro heq before after hsplit
        -- either all of the changes, or some of those before `d`
        rcases List.eq_nil_or_concat after with rfl | ⟨init, x, rfl⟩
        · rw [List.append_nil] at hsplit
          rw [← hsplit, List.sum_append, List.sum_singleton]
          omega
        · have hinit : ds = before ++ init := by
            rw [List.concat_eq_append, ← List.append_assoc] at hsplit
            exact (List.append_inj' hsplit rfl).1
          exact ih.mp (by omega) before init hinit
      · intro hprefix
        have hsum := ih.mpr fun before after h => hprefix before (after ++ [d]) (by simp [h])
        have hlast := hprefix (ds ++ [d]) [] (by simp)
        rw [List.sum_append, List.sum_singleton] at hlast
        omega

theorem foldl_add_of_nonneg {c : Int} (hc : 0 ≤ c) {ds : List Int} (hds : ∀ d ∈ ds, 0 ≤ d) :
    ds.foldl add c = c + ds.sum := by
  refine (foldl_add_eq_iff hc ds).mpr fun before after h => ?_
  have hbefore : 0 ≤ before.sum := List.sum_nonneg fun d hd => hds d (by simp [h, hd])
  omega

theorem foldl_add_of_nonpos {c : Int} (hc : 0 ≤ c) {ds : List Int} (hds : ∀ d ∈ ds, d ≤ 0) :
    ds.foldl add c = add c ds.sum := by
  induction ds generalizing c with
  | nil => simp [add, hc]
  | cons d ds ih =>
      have hd := hds d (by simp)
      have hsum : ds.sum ≤ 0 := by
        simpa using List.sum_le_card_nsmul ds 0 fun x hx => hds x (by simp [hx])
      rw [List.foldl_cons, ih (add_nonneg c d) fun x hx => hds x (by simp [hx]), List.sum_cons]
      simp only [add]
      omega

/-- Up, then down: one clamp at the end. -/
theorem foldl_add_up_down {c : Int} (hc : 0 ≤ c) {up down : List Int} (hup : ∀ d ∈ up, 0 ≤ d)
    (hdown : ∀ d ∈ down, d ≤ 0) : (up ++ down).foldl add c = add c (up ++ down).sum := by
  have hsum : 0 ≤ up.sum := List.sum_nonneg hup
  rw [List.foldl_append, foldl_add_of_nonneg hc hup, foldl_add_of_nonpos (by omega) hdown,
    List.sum_append, add, add, Int.add_assoc]

end Clamped
