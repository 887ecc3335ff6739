import Mathlib.Data.List.DropRight

/-!
Logs with a capacity. A deque is pushed to at one end and cut down to its
capacity at the other, one element at a time. However long it has been in use,
it holds the last entries of everything that was pushed, in order.
-/

namespace BoundedLog

variable {α β : Type*}

/-- `while (log.size() > cap) log.pop_front();` -/
def popFront (cap : ℕ) : List α → List α
  | [] => []
  | x :: log => if cap < (x :: log).length then popFront cap log else x :: log

/-- `while (log.size() > cap) log.pop_back();` -/
def popBack (cap : ℕ) (log : List α) : List α :=
  if cap < log.length then popBack cap log.dropLast else log
termination_by log.length
decreasing_by
  rw [List.length_dropLast]
  omega

/-- Push at the end, and cut at the front. -/
def pushBack (cap : ℕ) (log : List α) (x : α) : List α := popFront cap (log ++ [x])

/-- Push at the front, and cut at the end. -/
def pushFront (cap : ℕ) (log : List α) (x : α) : List α := popBack cap (x :: log)

theorem popFront_eq_rtake (cap : ℕ) (log : List α) : popFront cap log = log.rtake cap := by
  induction log with
  | nil => simp [popFront]
  | cons x log ih =>
      rw [popFront]
      split
      next h =>
        rw [ih, List.rtake, List.rtake]
        have hlength : (x :: log).length - cap = log.length - cap + 1 := by
          rw [List.length_cons] at h ⊢
          omega
        rw [hlength, List.drop_succ_cons]
      next h =>
        have hlength : (x :: log).length - cap = 0 := by omega
        rw [List.rtake, hlength, List.drop_zero]

theorem popBack_eq_take (cap : ℕ) (log : List α) : popBack cap log = log.take cap := by
  induction log using List.reverseRecOn with
  | nil => simp [popBack]
  | append_singleton log x ih =>
      rw [popBack]
      split
      next h =>
        rw [List.length_append, List.length_singleton] at h
        rw [List.dropLast_concat, ih, List.take_append_of_le_length (by omega)]
      next h => rw [List.take_of_length_le (by omega)]

theorem rtake_rtake (l : List α) (m n : ℕ) : (l.rtake m).rtake n = l.rtake (min n m) := by
  simp [List.rtake_eq_reverse_take_reverse, List.take_take]

theorem rtake_of_length_le {l : List α} {n : ℕ} (h : l.length ≤ n) : l.rtake n = l := by
  rw [List.rtake, Nat.sub_eq_zero_of_le h, List.drop_zero]

theorem length_rtake_le (l : List α) (n : ℕ) : (l.rtake n).length ≤ n := by
  rw [List.rtake, List.length_drop]
  omega

/-- What was cut off before makes no difference to what is kept. -/
theorem rtake_append_rtake (l xs : List α) (n : ℕ) :
    (l.rtake n ++ xs).rtake n = (l ++ xs).rtake n := by
  induction xs using List.reverseRecOn with
  | nil => rw [List.append_nil, List.append_nil, rtake_rtake, Nat.min_self]
  | append_singleton xs x ih =>
      rw [← List.append_assoc, ← List.append_assoc]
      cases n with
      | zero => simp
      | succ n =>
          have hshorter := congrArg (fun l => l.rtake n) ih
          simp only [rtake_rtake] at hshorter
          rw [Nat.min_eq_left (by omega)] at hshorter
          rw [List.rtake_concat_succ, List.rtake_concat_succ, hshorter]

/-- The log after any number of pushes at the end. -/
theorem foldl_pushBack (cap : ℕ) {log : List α} (hlog : log.length ≤ cap) (xs : List α) :
    xs.foldl (pushBack cap) log = (log ++ xs).rtake cap := by
  induction xs using List.reverseRecOn with
  | nil => rw [List.foldl_nil, List.append_nil, rtake_of_length_le hlog]
  | append_singleton xs x ih =>
      rw [List.foldl_concat, ih, pushBack, popFront_eq_rtake, rtake_append_rtake,
        List.append_assoc]

/-- The log after any number of pushes at the front: the newest comes first. -/
theorem foldl_pushFront (cap : ℕ) {log : List α} (hlog : log.length ≤ cap) (xs : List α) :
    xs.foldl (pushFront cap) log = (xs.reverse ++ log).take cap := by
  induction xs using List.reverseRecOn with
  | nil => rw [List.foldl_nil, List.reverse_nil, List.nil_append, List.take_of_length_le hlog]
  | append_singleton xs x ih =>
      rw [List.foldl_concat, ih, pushFront, popBack_eq_take, List.reverse_concat, List.cons_append]
      cases cap with
      | zero => simp
      | succ n => rw [List.take_succ_cons, List.take_succ_cons, List.take_take,
          Nat.min_eq_left (by omega)]

end BoundedLog
