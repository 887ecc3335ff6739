import Mathlib.Logic.Relation
import Mathlib.Order.WellFounded

/-!
Wait-for graphs. `W a b` says that `a` cannot go on before `b` has acted. A
deadlock is a cycle of the graph, a self-loop included; a rank that falls along
every edge excludes it.
-/

namespace WaitGraph

variable {τ : Type*}

/-- Some thread waits, directly or through others, for itself. -/
def Deadlock (W : τ → τ → Prop) : Prop := ∃ a, Relation.TransGen W a a

theorem Deadlock.of_self {W : τ → τ → Prop} {a : τ} (h : W a a) : Deadlock W :=
  ⟨a, .single h⟩

theorem Deadlock.of_pair {W : τ → τ → Prop} {a b : τ} (hab : W a b) (hba : W b a) :
    Deadlock W :=
  ⟨a, (Relation.TransGen.single hab).tail hba⟩

/-- A step that keeps every wait for a thread that itself waits keeps the paths
between waiting threads. -/
theorem transGen_persists {W W' : τ → τ → Prop} (hkeeps : ∀ a b c, W a b → W b c → W' a b)
    {a b c : τ} (hab : Relation.TransGen W a b) (hbc : W b c) : Relation.TransGen W' a b := by
  induction hab generalizing c with
  | single h => exact .single (hkeeps _ _ _ h hbc)
  | tail _ h ih => exact (ih h).tail (hkeeps _ _ _ h hbc)

/-- On a cycle every thread waits, so that such a step keeps the cycles. -/
theorem cycle_persists {W W' : τ → τ → Prop} (hkeeps : ∀ a b c, W a b → W b c → W' a b) {a : τ}
    (hcycle : Relation.TransGen W a a) : Relation.TransGen W' a a := by
  obtain ⟨b, hab, -⟩ := Relation.TransGen.head'_iff.mp hcycle
  exact transGen_persists hkeeps hcycle hab

theorem lt_of_transGen {W : τ → τ → Prop} {rank : τ → ℕ}
    (hrank : ∀ a b, W a b → rank b < rank a) {a b : τ} (h : Relation.TransGen W a b) :
    rank b < rank a := by
  induction h with
  | single hab => exact hrank _ _ hab
  | tail _ hbc ih => exact lt_trans (hrank _ _ hbc) ih

/-- A rank that falls along every wait excludes deadlock. -/
theorem not_deadlock_of_rank {W : τ → τ → Prop} (rank : τ → ℕ)
    (hrank : ∀ a b, W a b → rank b < rank a) : ¬ Deadlock W := by
  rintro ⟨a, h⟩
  exact lt_irrefl _ (lt_of_transGen hrank h)

end WaitGraph
