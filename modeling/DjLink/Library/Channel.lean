import Mathlib.Data.List.Basic
import Mathlib.Logic.Relation

/-!
A first-in first-out channel, as the abstract account of a queue between
producers and a consumer. Its state is what has been sent and not yet
received. The law of a channel is that what was received, followed by what is
still inside, is what was sent; a component that maps each of its steps to
channel operations inherits the law for its whole runs.
-/

namespace Channel

variable {α σ : Type*}

inductive Op (α : Type*) where
  | send (a : α)
  | receive (a : α)

/-- A send appends, a receive removes the head and yields it. -/
inductive Step : List α → Op α → List α → Prop
  | send (pending : List α) (a : α) : Step pending (.send a) (pending ++ [a])
  | receive (a : α) (pending : List α) : Step (a :: pending) (.receive a) pending

/-- `Path pending ops pending'`: the operations `ops`, oldest first, lead from
`pending` to `pending'`. -/
inductive Path : List α → List (Op α) → List α → Prop
  | nil (pending : List α) : Path pending [] pending
  | snoc {q r s : List α} {ops : List (Op α)} {op : Op α} :
      Path q ops r → Step r op s → Path q (ops ++ [op]) s

theorem Path.single {q r : List α} {op : Op α} (h : Step q op r) : Path q [op] r :=
  Path.snoc (.nil q) h

theorem Path.trans {q r s : List α} {ops₁ ops₂ : List (Op α)}
    (h₁ : Path q ops₁ r) (h₂ : Path r ops₂ s) : Path q (ops₁ ++ ops₂) s := by
  induction h₂ with
  | nil => simpa using h₁
  | snoc _ hstep ih =>
      rw [← List.append_assoc]
      exact ih.snoc hstep

def Op.sent : Op α → Option α
  | .send a => some a
  | .receive _ => none

def Op.received : Op α → Option α
  | .send _ => none
  | .receive a => some a

/-- The channel law: received, then pending, is initially pending, then sent. -/
theorem Path.law {q r : List α} {ops : List (Op α)} (h : Path q ops r) :
    ops.filterMap Op.received ++ r = q ++ ops.filterMap Op.sent := by
  induction h with
  | nil => simp
  | snoc _ hstep ih =>
      cases hstep with
      | send pending a =>
          simp only [List.filterMap_append, List.filterMap_cons, Op.received, Op.sent,
            List.filterMap_nil, List.append_nil]
          rw [← List.append_assoc, ih, List.append_assoc]
      | receive a pending =>
          simpa [List.filterMap_append, List.filterMap_cons, Op.received, Op.sent] using ih

/-- A channel that nobody sends to only shrinks: what it held is what is
received and then what is left. -/
theorem Path.received_append_of_sent_nil {q r : List α} {ops : List (Op α)}
    (h : Path q ops r) (hsent : ops.filterMap Op.sent = []) :
    ops.filterMap Op.received ++ r = q := by
  rw [h.law, hsent, List.append_nil]

end Channel
