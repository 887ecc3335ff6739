import Mathlib.Logic.Relation
import Mathlib.Order.OrderIsoNat

/-!
Runs of a labelled transition system. `Runs step P` relates two states when a
finite number of steps leads from one to the other, each from a state and with
a label that `P` admits. With `P` trivial these are all runs; a narrower `P`
restricts who moves, which labels occur or in which states.
-/

namespace Transition

variable {σ ℓ : Type*}

/-- One admitted step. -/
def Moves (step : σ → ℓ → σ → Prop) (P : σ → ℓ → Prop) (s t : σ) : Prop :=
  ∃ l, P s l ∧ step s l t

/-- Any finite number of admitted steps. -/
abbrev Runs (step : σ → ℓ → σ → Prop) (P : σ → ℓ → Prop) : σ → σ → Prop :=
  Relation.ReflTransGen (Moves step P)

/-- All runs. -/
abbrev Reaches (step : σ → ℓ → σ → Prop) : σ → σ → Prop :=
  Runs step fun _ _ => True

variable {step : σ → ℓ → σ → Prop} {P Q : σ → ℓ → Prop}

theorem Runs.single {s t : σ} {l : ℓ} (hl : P s l) (h : step s l t) : Runs step P s t :=
  Relation.ReflTransGen.single ⟨l, hl, h⟩

theorem Runs.snoc {s t u : σ} {l : ℓ} (h : Runs step P s t) (hl : P t l) (hstep : step t l u) :
    Runs step P s u :=
  Relation.ReflTransGen.tail h ⟨l, hl, hstep⟩

theorem Runs.mono (hPQ : ∀ s l, P s l → Q s l) {s t : σ} (h : Runs step P s t) :
    Runs step Q s t :=
  Relation.ReflTransGen.mono (fun _ _ ⟨l, hl, hstep⟩ => ⟨l, hPQ _ _ hl, hstep⟩) _ _ h

theorem Runs.reaches {s t : σ} (h : Runs step P s t) : Reaches step s t :=
  h.mono fun _ _ _ => trivial

/-- The invariant rule: what holds at the start and is preserved by every
admitted step holds at the end of a run. -/
theorem Runs.invariant {I : σ → Prop}
    (hstep : ∀ s l t, I s → P s l → step s l t → I t)
    {s t : σ} (h : Runs step P s t) (hs : I s) : I t := by
  induction h with
  | refl => exact hs
  | tail _ hmove ih =>
      obtain ⟨l, hl, h⟩ := hmove
      exact hstep _ l _ ih hl h

/-- The rule for quantities that a run only moves along a preorder. -/
theorem Runs.relate {R : σ → σ → Prop} (hrefl : ∀ s, R s s)
    (htail : ∀ r s l t, R r s → P s l → step s l t → R r t)
    {s t : σ} (h : Runs step P s t) : R s t := by
  induction h with
  | refl => exact hrefl s
  | tail _ hmove ih =>
      obtain ⟨l, hl, h⟩ := hmove
      exact htail _ _ l _ ih hl h

/-- What an invariant says of the states of a run may be added to what is
admitted. -/
theorem Runs.refine {I : σ → Prop}
    (hstep : ∀ s l t, I s → P s l → step s l t → Q s l ∧ I t)
    {s t : σ} (h : Runs step P s t) (hs : I s) : Runs step Q s t ∧ I t := by
  induction h with
  | refl => exact ⟨.refl, hs⟩
  | tail _ hmove ih =>
      obtain ⟨l, hl, h⟩ := hmove
      obtain ⟨hl', ht⟩ := hstep _ l _ ih.2 hl h
      exact ⟨ih.1.snoc hl' h, ht⟩

/-! ### Runs without end -/

/-- A run without end, with the label of every step. -/
def Execution (step : σ → ℓ → σ → Prop) (trace : ℕ → σ) (label : ℕ → ℓ) : Prop :=
  ∀ n, step (trace n) (label n) (trace (n + 1))

theorem Execution.runs {trace : ℕ → σ} {label : ℕ → ℓ} (h : Execution step trace label) {n m : ℕ}
    (hle : n ≤ m) (hP : ∀ k, n ≤ k → k < m → P (trace k) (label k)) :
    Runs step P (trace n) (trace m) := by
  induction m, hle using Nat.le_induction with
  | base => exact .refl
  | succ m hle ih =>
      have hrun := ih fun k hnk hkm => hP k hnk (Nat.lt_succ_of_lt hkm)
      exact hrun.snoc (hP m hle (Nat.lt_succ_self m)) (h m)

/-- The leads-to rule: what is either followed by the goal or comes again with a
smaller rank is followed by the goal. -/
theorem eventually_of_rank {P G : ℕ → Prop} (rank : ℕ → ℕ)
    (h : ∀ n, P n → (∃ m, n ≤ m ∧ G m) ∨ ∃ m, n ≤ m ∧ P m ∧ rank m < rank n) {n : ℕ} (hn : P n) :
    ∃ m, n ≤ m ∧ G m := by
  induction hr : rank n using Nat.strong_induction_on generalizing n with
  | h r ih =>
      obtain hgoal | ⟨m, hnm, hm, hlt⟩ := h n hn
      · exact hgoal
      · obtain ⟨k, hmk, hk⟩ := ih (rank m) (hr ▸ hlt) hm rfl
        exact ⟨k, hnm.trans hmk, hk⟩

/-- The progress rule: along a run without end, a well-founded measure that no
step takes up is taken down by only finitely many. -/
theorem eventually_not_of_measure {μ : Type*} [PartialOrder μ] [WellFoundedLT μ] (f : ℕ → μ)
    (moves : ℕ → Prop) (hle : ∀ n, f (n + 1) ≤ f n) (hlt : ∀ n, moves n → f (n + 1) < f n) :
    ∃ N, ∀ n, N ≤ n → ¬ moves n := by
  obtain ⟨N, hN⟩ := WellFoundedLT.antitone_chain_condition (antitone_nat_of_succ_le hle)
  refine ⟨N, fun n hn hmoves => ?_⟩
  have hdrop := hlt n hmoves
  rw [← hN (n + 1) (by omega), ← hN n hn] at hdrop
  exact hdrop.false

end Transition
