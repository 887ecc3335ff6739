import Mathlib.Data.List.Induction

/-!
Runs of a step function that may have no outcome: a program that goes wrong at
a step is taken to stop there. A run goes through when all of its steps have an
outcome, and an invariant is the way to show that they do.
-/

namespace PartialRun

variable {σ μ : Type*} {step : σ → μ → Option σ}

/-- The outcome of a sequence of moves, if all of them have one. -/
def run (step : σ → μ → Option σ) (s : σ) (moves : List μ) : Option σ := moves.foldlM step s

@[simp] theorem run_nil (s : σ) : run step s [] = some s := rfl

@[simp] theorem run_cons (s : σ) (m : μ) (moves : List μ) :
    run step s (m :: moves) = (step s m).bind fun t => run step t moves := rfl

theorem run_append (s : σ) (before after : List μ) :
    run step s (before ++ after) = (run step s before).bind fun t => run step t after := by
  induction before generalizing s with
  | nil => rfl
  | cons m before ih =>
      rw [List.cons_append, run_cons, run_cons, Option.bind_assoc]
      exact congrArg (step s m).bind (funext fun t => ih t)

/-- Under an invariant from which no admitted step goes wrong, a run goes
through and keeps the invariant. -/
theorem exists_run {I : σ → Prop} {P : μ → Prop}
    (hstep : ∀ s m, I s → P m → ∃ t, step s m = some t ∧ I t) {s : σ} (hs : I s)
    {moves : List μ} (hmoves : ∀ m ∈ moves, P m) : ∃ t, run step s moves = some t ∧ I t := by
  induction moves generalizing s with
  | nil => exact ⟨s, rfl, hs⟩
  | cons m moves ih =>
      obtain ⟨t, ht, hI⟩ := hstep s m hs (hmoves m List.mem_cons_self)
      rw [run_cons, ht, Option.bind_some]
      exact ih hI fun x hx => hmoves x (List.mem_cons_of_mem m hx)

/-- The same where every move is admitted. -/
theorem exists_run_of_total {I : σ → Prop} (hstep : ∀ s m, I s → ∃ t, step s m = some t ∧ I t)
    {s : σ} (hs : I s) (moves : List μ) : ∃ t, run step s moves = some t ∧ I t :=
  exists_run (P := fun _ => True) (fun s m h _ => hstep s m h) hs fun _ _ => trivial

/-- What every step with an outcome keeps holds at the end of every run with
one. -/
theorem run_preserves {I : σ → Prop} (hstep : ∀ s m t, I s → step s m = some t → I t) {s t : σ}
    {moves : List μ} (hs : I s) (h : run step s moves = some t) : I t := by
  induction moves generalizing s with
  | nil =>
      obtain rfl := Option.some.inj h
      exact hs
  | cons m moves ih =>
      obtain ⟨u, hu, hrest⟩ := Option.bind_eq_some_iff.mp h
      exact ih (hstep s m u hs hu) hrest

/-! ### Runs with their history -/

/-- The moves of a run, each with the state that it is made in. -/
def trace (step : σ → μ → Option σ) (s : σ) : List μ → List (σ × μ)
  | [] => []
  | m :: moves => (s, m) :: (step s m).elim [] fun t => trace step t moves

/-- An invariant may speak of the history as well. -/
theorem exists_run_trace {I : List (σ × μ) → σ → Prop}
    (hstep : ∀ h s m, I h s → ∃ t, step s m = some t ∧ I (h ++ [(s, m)]) t)
    {h : List (σ × μ)} {s : σ} (hs : I h s) (moves : List μ) :
    ∃ t, run step s moves = some t ∧ I (h ++ trace step s moves) t := by
  induction moves generalizing h s with
  | nil => exact ⟨s, rfl, by rwa [trace, List.append_nil]⟩
  | cons m moves ih =>
      obtain ⟨t, ht, hI⟩ := hstep h s m hs
      obtain ⟨u, hu, hlast⟩ := ih hI
      refine ⟨u, by rw [run_cons, ht, Option.bind_some, hu], ?_⟩
      rw [trace, ht, Option.elim_some, ← List.singleton_append, ← List.append_assoc]
      exact hlast

end PartialRun
