import Mathlib.Data.List.Basic
import Mathlib.Data.List.Induction

/-!
Registers read off a history. Each entry of a history either leaves a
register alone or writes a value to it; the register then holds the value of
the last entry that wrote. A register with a reset is the case of values
`Option β`, where a reset writes `none`.
-/

namespace LastWrite

variable {α β γ σ : Type*}

/-- The value of the last entry of `h` that writes, if one does. -/
def lastWrite (op : α → Option β) (h : List α) : Option β :=
  h.reverse.findSome? op

@[simp] theorem lastWrite_nil (op : α → Option β) : lastWrite op [] = none := rfl

theorem lastWrite_append (op : α → Option β) (h₁ h₂ : List α) :
    lastWrite op (h₁ ++ h₂) = (lastWrite op h₂).or (lastWrite op h₁) := by
  simp [lastWrite, List.findSome?_append]

@[simp] theorem lastWrite_concat (op : α → Option β) (h : List α) (a : α) :
    lastWrite op (h ++ [a]) = (op a).or (lastWrite op h) := by
  rw [lastWrite_append]
  simp [lastWrite]

theorem lastWrite_cons (op : α → Option β) (a : α) (h : List α) :
    lastWrite op (a :: h) = (lastWrite op h).or (op a) := by
  rw [← List.singleton_append, lastWrite_append]
  simp [lastWrite]

theorem lastWrite_eq_none_iff {op : α → Option β} {h : List α} :
    lastWrite op h = none ↔ ∀ a ∈ h, op a = none := by
  simp [lastWrite]

/-- A written register holds the value of an entry after which none wrote. -/
theorem lastWrite_eq_some_iff {op : α → Option β} {h : List α} {b : β} :
    lastWrite op h = some b ↔
      ∃ before a after, h = before ++ a :: after ∧ op a = some b ∧
        ∀ x ∈ after, op x = none := by
  induction h using List.reverseRecOn with
  | nil => simp
  | append_singleton h a ih =>
      rw [lastWrite_concat]
      constructor
      · intro hb
        cases ha : op a with
        | some c =>
            rw [ha, Option.some_or] at hb
            exact ⟨h, a, [], rfl, ha.trans hb, by simp⟩
        | none =>
            rw [ha, Option.none_or] at hb
            obtain ⟨before, x, after, rfl, hx, hafter⟩ := ih.mp hb
            refine ⟨before, x, after ++ [a], by simp, hx, ?_⟩
            intro y hy
            rcases List.mem_append.mp hy with hy | hy
            · exact hafter y hy
            · rw [List.mem_singleton.mp hy, ha]
      · rintro ⟨before, x, after, heq, hx, hafter⟩
        rcases List.eq_nil_or_concat after with rfl | ⟨init, y, rfl⟩
        · obtain ⟨rfl, rfl⟩ : h = before ∧ a = x := by simpa using List.append_inj' heq rfl
          simp [hx]
        · rw [List.concat_eq_append] at heq hafter
          have hsplit : h ++ [a] = (before ++ x :: init) ++ [y] := by simpa using heq
          obtain ⟨rfl, hay⟩ := List.append_inj' hsplit rfl
          obtain rfl : a = y := by simpa using hay
          rw [hafter a (by simp), Option.none_or]
          exact ih.mpr ⟨before, x, init, rfl, hx, fun z hz => hafter z (by simp [hz])⟩

/-! ### Splits of a history -/

/-- The splits of a history at one of its entries, one entry at a time. -/
theorem forall_split_cons {P : List α → α → List α → Prop} {a : α} {h : List α} :
    (∀ before x after, a :: h = before ++ x :: after → P before x after) ↔
      P [] a h ∧ ∀ before x after, h = before ++ x :: after → P (a :: before) x after := by
  constructor
  · intro hsplit
    exact ⟨hsplit [] a h rfl, fun before x after heq => hsplit (a :: before) x after (by simp [heq])⟩
  · rintro ⟨hfirst, hrest⟩ before x after heq
    cases before with
    | nil =>
        obtain ⟨rfl, rfl⟩ := List.cons.inj heq
        exact hfirst
    | cons b before =>
        obtain ⟨rfl, htail⟩ := List.cons.inj heq
        exact hrest before x after htail

theorem forall_split_nil {P : List α → α → List α → Prop} :
    ∀ before x after, [] = before ++ x :: after → P before x after := by
  intro before x after heq
  exact absurd heq.symm (List.append_ne_nil_of_right_ne_nil before (List.cons_ne_nil x after))

/-- A list with an entry of a property splits at the last such entry. -/
theorem exists_last_split {p : α → Prop} {h : List α} (hp : ∃ a ∈ h, p a) :
    ∃ before a after, h = before ++ a :: after ∧ p a ∧ ∀ x ∈ after, ¬ p x := by
  classical
  let op : α → Option Unit := fun a => if p a then some () else none
  obtain ⟨b, hb⟩ : ∃ b, lastWrite op h = some b := by
    rw [← Option.isSome_iff_exists, ← Option.ne_none_iff_isSome]
    intro hnone
    obtain ⟨a, ha, hpa⟩ := hp
    have := lastWrite_eq_none_iff.mp hnone a ha
    simp [op, hpa] at this
  obtain ⟨before, a, after, rfl, ha, hafter⟩ := lastWrite_eq_some_iff.mp hb
  refine ⟨before, a, after, rfl, by simpa [op] using ha, fun x hx hpx => ?_⟩
  have := hafter x hx
  simp [op, hpx] at this

/-- There is only one way to split a list at its last entry with a property. -/
theorem last_split_unique {p : α → Prop} {before before' after after' : List α} {a a' : α}
    (heq : before ++ a :: after = before' ++ a' :: after') (ha : p a) (ha' : p a')
    (hafter : ∀ x ∈ after, ¬ p x) (hafter' : ∀ x ∈ after', ¬ p x) :
    before = before' ∧ a = a' ∧ after = after' := by
  rcases List.append_eq_append_iff.mp heq with ⟨mid, rfl, hmid⟩ | ⟨mid, rfl, hmid⟩
  · cases mid with
    | nil => simpa using hmid
    | cons x mid =>
        obtain ⟨-, rfl⟩ : a = x ∧ after = mid ++ a' :: after' := by simpa using hmid
        exact absurd ha' (hafter a' (by simp))
  · cases mid with
    | nil => simpa [eq_comm] using hmid
    | cons x mid =>
        obtain ⟨-, rfl⟩ : a' = x ∧ after' = mid ++ a :: after := by simpa using hmid
        exact absurd ha (hafter' a (by simp))

/-- Dropping entries that do not write leaves the register alone. -/
theorem lastWrite_filter {op : α → Option β} {p : α → Bool} {h : List α}
    (hp : ∀ a ∈ h, p a = false → op a = none) :
    lastWrite op (h.filter p) = lastWrite op h := by
  induction h with
  | nil => rfl
  | cons a h ih =>
      have ih := ih fun x hx => hp x (List.mem_cons_of_mem a hx)
      cases ha : p a with
      | true => rw [List.filter_cons_of_pos ha, lastWrite_cons, lastWrite_cons, ih]
      | false =>
          rw [List.filter_cons_of_neg (by simp [ha]), ih, lastWrite_cons,
            hp a List.mem_cons_self ha, Option.or_none]

/-- The last write of the entries that `f` keeps. -/
theorem lastWrite_filterMap (f : α → Option β) (op : β → Option γ) (h : List α) :
    lastWrite op (h.filterMap f) = lastWrite (fun a => (f a).bind op) h := by
  induction h with
  | nil => rfl
  | cons a h ih =>
      rw [lastWrite_cons, ← ih]
      cases hf : f a with
      | none => rw [List.filterMap_cons_none hf, Option.bind_none, Option.or_none]
      | some b => rw [List.filterMap_cons_some hf, lastWrite_cons, Option.bind_some]

/-- A field of a folded state is a register when every step either keeps it or
overwrites it with what the entry writes. -/
theorem foldl_eq_lastWrite (read : σ → β) (step : σ → α → σ) (op : α → Option β)
    (hstep : ∀ s a, read (step s a) = (op a).getD (read s)) (s : σ) (h : List α) :
    read (h.foldl step s) = (lastWrite op h).getD (read s) := by
  induction h using List.reverseRecOn with
  | nil => rfl
  | append_singleton h a ih =>
      rw [List.foldl_concat, hstep, ih, lastWrite_concat]
      cases op a <;> rfl

/-! ### Entries by their place -/

theorem getElem?_of_prefix {l₁ l₂ : List α} (h : l₁ <+: l₂) {i : ℕ} {a : α}
    (hi : l₁[i]? = some a) : l₂[i]? = some a := by
  obtain ⟨hlt, rfl⟩ := List.getElem?_eq_some_iff.mp hi
  exact List.prefix_iff_getElem?.mp h i hlt

/-- An entry at or after the place of `b`, with no other of its kind after
`b`, is `b`. -/
theorem eq_of_last {l pre post : List α} {b b' : α} {p : α → Prop} (hl : l = pre ++ b :: post)
    (hpost : ∀ x ∈ post, ¬ p x) {j : ℕ} (hj : pre.length ≤ j) (hb' : l[j]? = some b')
    (hp : p b') : b' = b := by
  obtain ⟨k, rfl⟩ := Nat.exists_eq_add_of_le hj
  rw [hl, List.getElem?_append_right (by omega), Nat.add_sub_cancel_left] at hb'
  cases k with
  | zero => exact (Option.some.inj hb').symm
  | succ k =>
      rw [List.getElem?_cons_succ] at hb'
      exact absurd hp (hpost b' (List.mem_of_getElem? hb'))

/-- The `i`-th value that `f` selects comes from an entry with `i` selected
values before it. -/
theorem filterMap_split {f : α → Option γ} {h : List α} {i : ℕ} {c : γ}
    (hi : (h.filterMap f)[i]? = some c) :
    ∃ before a after, h = before ++ a :: after ∧ f a = some c ∧
      (before.filterMap f).length = i := by
  induction h generalizing i with
  | nil => simp at hi
  | cons x h ih =>
      cases hx : f x with
      | none =>
          rw [List.filterMap_cons_none hx] at hi
          obtain ⟨before, a, after, rfl, ha, hlen⟩ := ih hi
          exact ⟨x :: before, a, after, rfl, ha, by rwa [List.filterMap_cons_none hx]⟩
      | some y =>
          rw [List.filterMap_cons_some hx] at hi
          cases i with
          | zero =>
              obtain rfl : y = c := by simpa using hi
              exact ⟨[], x, h, rfl, hx, rfl⟩
          | succ i =>
              rw [List.getElem?_cons_succ] at hi
              obtain ⟨before, a, after, rfl, ha, hlen⟩ := ih hi
              refine ⟨x :: before, a, after, rfl, ha, ?_⟩
              rw [List.filterMap_cons_some hx, List.length_cons]
              omega

/-- The converse: an entry is found at the number of values before it. -/
theorem getElem?_filterMap_split {f : α → Option γ} {a : α} {c : γ} (ha : f a = some c)
    (before after : List α) :
    ((before ++ a :: after).filterMap f)[(before.filterMap f).length]? = some c := by
  rw [List.filterMap_append, List.filterMap_cons_some ha, List.getElem?_append_right (Nat.le_refl _)]
  simp

/-- If the entry behind the `i`-th value of `f` writes, then what the register
holds was written by that entry or by a later one; and if the writer has a
value of `f` itself, its number is at least `i`. -/
theorem lastWrite_not_before {f : α → Option γ} {op : α → Option β} {h : List α} {i : ℕ} {c : γ}
    (hi : (h.filterMap f)[i]? = some c) (hop : ∀ a, f a = some c → op a ≠ none) :
    ∃ before a after x b, h = before ++ a :: after ∧ f a = some c ∧
      (before.filterMap f).length = i ∧ x ∈ a :: after ∧ op x = some b ∧
      lastWrite op h = some b ∧
      ∀ c', f x = some c' → ∃ j, i ≤ j ∧ (h.filterMap f)[j]? = some c' := by
  obtain ⟨before, a, after, rfl, ha, hlen⟩ := filterMap_split hi
  have hwrites : lastWrite op (a :: after) ≠ none := by
    intro hnone
    exact hop a ha (lastWrite_eq_none_iff.mp hnone a List.mem_cons_self)
  obtain ⟨b, hb⟩ := Option.ne_none_iff_exists'.mp hwrites
  obtain ⟨mid, x, rest, hsplit, hx, -⟩ := lastWrite_eq_some_iff.mp hb
  refine ⟨before, a, after, x, b, rfl, ha, hlen, by simp [hsplit], hx, ?_, fun c' hc' => ?_⟩
  · rw [lastWrite_append, hb, Option.some_or]
  · refine ⟨((before ++ mid).filterMap f).length, ?_, ?_⟩
    · rw [List.filterMap_append, List.length_append]
      omega
    · rw [hsplit, ← List.append_assoc]
      exact getElem?_filterMap_split hc' (before ++ mid) rest

end LastWrite
