import Mathlib.Data.List.Sort

/-!
Sorting as far as a comparison says: the entries of a list in an order in which
none comes after a greater one. Entries that the comparison does not tell apart
may come in any order, so that there are many functions that sort; a stable one
is among them if the comparison is a strict weak order. What is sorted here are
rows, looked up by their ids.
-/

namespace Sorting

variable {α : Type*}

structure SortsBy (lt : α → α → Bool) (sort : List α → List α) : Prop where
  perm : ∀ l, (sort l).Perm l
  pairwise : ∀ l, (sort l).Pairwise fun a b => lt b a = false

variable {lt : α → α → Bool} {sort : List α → List α}

theorem SortsBy.length_eq (h : SortsBy lt sort) (l : List α) : (sort l).length = l.length :=
  (h.perm l).length_eq

theorem SortsBy.mem_iff (h : SortsBy lt sort) {l : List α} {a : α} : a ∈ sort l ↔ a ∈ l :=
  (h.perm l).mem_iff

theorem sortsBy_mergeSort (hasymm : ∀ a b, lt a b = true → lt b a = false)
    (htrans : ∀ a b c, lt b a = false → lt c b = false → lt c a = false) :
    SortsBy lt fun l => l.mergeSort fun a b => !lt b a where
  perm l := List.mergeSort_perm l _
  pairwise l := by
    have hpairwise : (l.mergeSort fun a b => !lt b a).Pairwise fun a b => (!lt b a) = true := by
      refine List.pairwise_mergeSort (fun a b c hab hbc => ?_) (fun a b => ?_) l
      · simp only [Bool.not_eq_true'] at hab hbc ⊢
        exact htrans a b c hab hbc
      · cases hba : lt b a with
        | false => rfl
        | true => simp [hasymm b a hba]
    exact hpairwise.imp fun h => by simpa using h

/-! ### Rows of a list of ids -/

/-- If an id has a row exactly when `p` says so, the rows of a list of ids are
those of the ids that pass `p`. -/
theorem map_filterMap_eq_filter {ι : Type*} {row : ι → Option α} {id : α → ι} {p : ι → Bool}
    (hrow : ∀ i, (row i).map id = if p i then some i else none) (ids : List ι) :
    (ids.filterMap row).map id = ids.filter p := by
  rw [List.map_filterMap, ← List.filterMap_eq_filter]
  refine List.filterMap_congr fun i _ => ?_
  rw [hrow i, Option.guard_apply]

end Sorting
