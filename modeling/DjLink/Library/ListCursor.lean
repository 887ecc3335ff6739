import Mathlib.Data.List.Induction

/-!
A selection in a list, and the window of rows that shows it. The list may have
any length and the window any height. The keys move the selection by a row or
by a window and let the window follow. A list with an entry always has its
selection inside it and inside the window; an empty list has none, and there
the selection is left at -1 or at 0, by the last key.
-/

namespace ListCursor

variable {α : Type*}

/-- The entry at a signed index; nothing outside the list. -/
def at? (l : List α) (i : Int) : Option α := if 0 ≤ i then l[i.toNat]? else none

@[simp] theorem at?_natCast (l : List α) (n : ℕ) : at? l n = l[n]? := by simp [at?]

@[simp] theorem at?_cons_zero (a : α) (l : List α) : at? (a :: l) 0 = some a := rfl

theorem at?_isSome_iff (l : List α) (i : Int) :
    (at? l i).isSome ↔ 0 ≤ i ∧ i < l.length := by
  rw [at?]
  split
  next h => rw [isSome_getElem?]; omega
  next h => simp [h]

theorem mem_of_at? {l : List α} {i : Int} {a : α} (h : at? l i = some a) : a ∈ l := by
  rw [at?] at h
  split at h
  · exact List.mem_of_getElem? h
  · cases h

theorem at?_modify (l : List α) {i : Int} (hi : 0 ≤ i) (f : α → α) :
    at? (l.modify i.toNat f) i = (at? l i).map f := by
  rw [at?, if_pos hi, at?, if_pos hi, List.getElem?_modify_eq]
  rfl

theorem at?_modify_ne (l : List α) {i j : Int} (hi : 0 ≤ i) (hne : j ≠ i) (f : α → α) :
    at? (l.modify i.toNat f) j = at? l j := by
  rw [at?, at?]
  split
  · exact List.getElem?_modify_ne f l (by omega)
  · rfl

/-- The entry at an index that is checked against the end of the list only:
nothing behind the list, and no outcome in front of it. -/
def readBelow (l : List α) (i : Int) : Option (Option α) :=
  if i < l.length then (at? l i).map some else some none

theorem readBelow_of_at? {l : List α} {i : Int} {a : α} (h : at? l i = some a) :
    readBelow l i = some (some a) := by
  have hi := (at?_isSome_iff l i).mp (by rw [h]; rfl)
  rw [readBelow, if_pos hi.2, h]
  rfl

theorem readBelow_of_neg (l : List α) {i : Int} (h : i < 0) : readBelow l i = none := by
  rw [readBelow, if_pos (by omega), at?, if_neg (by omega)]
  rfl

/-- `n` entries from `i` on, read one by one. -/
def readFrom (l : List α) : ℕ → Int → Option (List α)
  | 0, _ => some []
  | n + 1, i => do
      let a ← at? l i
      let rest ← readFrom l n (i + 1)
      return a :: rest

/-- The entries in a window: those from `offset` on up to `offset + rows` or to
the end of the list. -/
def readWindow (rows : Int) (l : List α) (offset : Int) : Option (List α) :=
  readFrom l (min (offset + rows) l.length - offset).toNat offset

theorem readFrom_eq {l : List α} {n : ℕ} {i : Int} (hi : 0 ≤ i) (hn : i + n ≤ l.length) :
    readFrom l n i = some ((l.drop i.toNat).take n) := by
  induction n generalizing i with
  | zero => simp [readFrom]
  | succ n ih =>
      have hlt : i.toNat < l.length := by omega
      have hnext : (i + 1).toNat = i.toNat + 1 := by omega
      rw [readFrom, ih (by omega) (by omega), at?, if_pos hi, List.getElem?_eq_getElem hlt, hnext,
        List.drop_eq_getElem_cons hlt]
      rfl

/-- A window that does not begin in front of the list reads inside of it. -/
theorem readWindow_eq {rows : Int} (l : List α) {offset : Int} (hrows : 0 ≤ rows)
    (hoffset : 0 ≤ offset) :
    readWindow rows l offset = some ((l.drop offset.toNat).take rows.toNat) := by
  rw [readWindow]
  by_cases h : offset < l.length
  · rw [readFrom_eq hoffset (by omega)]
    by_cases hend : offset + rows ≤ l.length
    · rw [Int.min_eq_left hend]
      congr 2
      omega
    · rw [Int.min_eq_right (by omega), List.take_of_length_le (by rw [List.length_drop]; omega),
        List.take_of_length_le (by rw [List.length_drop]; omega)]
  · have hzero : (min (offset + rows) (l.length : Int) - offset).toNat = 0 := by omega
    rw [hzero, readFrom, List.drop_of_length_le (by omega), List.take_nil]

structure Cursor where
  index : Int := 0
  offset : Int := 0

/-- The keys that move a selection. -/
inductive Key where
  | up
  | down
  | pageUp
  | pageDown
  deriving DecidableEq

namespace Cursor

variable (rows size : Int)

def up (c : Cursor) : Cursor :=
  let index := max 0 (c.index - 1)
  { index := index, offset := if index < c.offset then index else c.offset }

def down (c : Cursor) : Cursor :=
  let index := min (size - 1) (c.index + 1)
  { index := index
    offset := if index ≥ c.offset + rows then index - rows + 1 else c.offset }

def pageUp (c : Cursor) : Cursor where
  index := max 0 (c.index - rows)
  offset := max 0 (c.offset - rows)

def pageDown (c : Cursor) : Cursor :=
  let offset := min (size - rows) (c.offset + rows)
  -- below 0 when the list is shorter than the window
  { index := min (size - 1) (c.index + rows), offset := if offset < 0 then 0 else offset }

def press (c : Cursor) : Key → Cursor
  | .up => c.up
  | .down => c.down rows size
  | .pageUp => c.pageUp rows
  | .pageDown => c.pageDown rows size

/-- Go to `i`, or to the end of the list that is nearer to it. -/
def select (i : Int) (c : Cursor) : Cursor :=
  let index := max 0 (min i (size - 1))
  { index := index
    offset :=
      if index < c.offset then index
      else if index ≥ c.offset + rows then index - rows + 1
      else c.offset }

/-- The selection is an entry of the list and on show, and the window does not
run over the end of the list by more than it must. -/
structure OnShow (c : Cursor) : Prop where
  index_nonneg : 0 ≤ c.index
  index_lt : c.index < size
  offset_nonneg : 0 ≤ c.offset
  offset_le : c.offset ≤ c.index
  lt_offset : c.index < c.offset + rows
  window_le : c.offset + rows ≤ max size rows

/-- The invariant: on show, or idle at the top of an empty list. -/
def Fits (c : Cursor) : Prop :=
  OnShow rows size c ∨ size = 0 ∧ (c.index = -1 ∨ c.index = 0) ∧ c.offset = 0

variable {rows size : Int} {c : Cursor}

theorem Fits.onShow (h : c.Fits rows size) (hsize : 0 < size) : c.OnShow rows size := by
  obtain h | ⟨rfl, -⟩ := h
  · exact h
  · exact absurd hsize (Int.lt_irrefl 0)

/-- The only index outside a list is that of the empty list after a step
down. -/
theorem Fits.index_cases (h : c.Fits rows size) :
    0 ≤ c.index ∧ c.index < size ∨ size = 0 ∧ (c.index = -1 ∨ c.index = 0) := by
  obtain h | ⟨hsize, hindex, -⟩ := h
  · exact .inl ⟨h.index_nonneg, h.index_lt⟩
  · exact .inr ⟨hsize, hindex⟩

theorem Fits.offset_nonneg (h : c.Fits rows size) : 0 ≤ c.offset := by
  obtain h | ⟨-, -, hoffset⟩ := h
  · exact h.offset_nonneg
  · exact Int.le_of_eq hoffset.symm

/-- Of the first rows of the window that shows it, the selection is among those
that reach down to it, at its distance from the top. -/
theorem OnShow.getElem?_drawn_iff {l : List α} (h : c.OnShow rows l.length) (drawn : Int) :
    ((l.drop c.offset.toNat).take drawn.toNat)[(c.index - c.offset).toNat]? = at? l c.index ↔
      c.index < c.offset + drawn := by
  obtain ⟨h₁, h₂, h₃, h₄, h₅, -⟩ := h
  have hplace : c.offset.toNat + (c.index - c.offset).toNat = c.index.toNat := by omega
  have hsome : (at? l c.index).isSome := (at?_isSome_iff l c.index).mpr ⟨h₁, h₂⟩
  by_cases hlt : c.index < c.offset + drawn
  · rw [List.getElem?_take_of_lt (by omega), List.getElem?_drop, hplace, at?, if_pos h₁]
    exact iff_of_true rfl hlt
  · refine iff_of_false (fun heq => ?_) hlt
    rw [← heq, List.getElem?_take_eq_none (by omega)] at hsome
    cases hsome

/-- A selection on show is in the window, at its distance from the top. -/
theorem OnShow.getElem?_window {l : List α} (h : c.OnShow rows l.length) :
    ((l.drop c.offset.toNat).take rows.toNat)[(c.index - c.offset).toNat]? = at? l c.index :=
  (h.getElem?_drawn_iff rows).mpr h.lt_offset

theorem fits_initial (hrows : 0 < rows) (hsize : 0 ≤ size) : Fits rows size {} := by
  obtain hsize | rfl : 0 < size ∨ size = 0 := by omega
  · refine .inl ?_
    constructor <;> simp only <;> omega
  · exact .inr ⟨rfl, .inr rfl, rfl⟩

theorem OnShow.up (h : c.OnShow rows size) : c.up.OnShow rows size := by
  obtain ⟨h₁, h₂, h₃, h₄, h₅, h₆⟩ := h
  constructor <;> simp only [Cursor.up] <;> omega

theorem OnShow.down (h : c.OnShow rows size) : (c.down rows size).OnShow rows size := by
  obtain ⟨h₁, h₂, h₃, h₄, h₅, h₆⟩ := h
  constructor <;> simp only [Cursor.down] <;> omega

theorem OnShow.pageUp (h : c.OnShow rows size) : (c.pageUp rows).OnShow rows size := by
  obtain ⟨h₁, h₂, h₃, h₄, h₅, h₆⟩ := h
  constructor <;> simp only [Cursor.pageUp] <;> omega

theorem OnShow.pageDown (h : c.OnShow rows size) : (c.pageDown rows size).OnShow rows size := by
  obtain ⟨h₁, h₂, h₃, h₄, h₅, h₆⟩ := h
  constructor <;> simp only [Cursor.pageDown] <;> omega

/-- Every key keeps the selection on show. -/
theorem OnShow.press (h : c.OnShow rows size) (key : Key) :
    (c.press rows size key).OnShow rows size := by
  cases key with
  | up => exact h.up
  | down => exact h.down
  | pageUp => exact h.pageUp
  | pageDown => exact h.pageDown

end Cursor

/-- The keys that move the selection towards the end. -/
def Key.GoesDown : Key → Prop
  | .up => False
  | .down => True
  | .pageUp => False
  | .pageDown => True

instance : DecidablePred Key.GoesDown := fun key => by
  cases key <;> simp only [Key.GoesDown] <;> infer_instance

namespace Cursor

variable {rows size : Int} {c : Cursor}

/-- In an empty list a key leaves the selection at -1 or at 0. -/
theorem press_empty (hrows : 0 < rows) (hindex : c.index = -1 ∨ c.index = 0)
    (hoffset : c.offset = 0) (key : Key) :
    c.press rows 0 key = { index := if key.GoesDown then -1 else 0, offset := 0 } := by
  obtain ⟨index, offset⟩ := c
  obtain rfl : offset = 0 := hoffset
  obtain rfl | rfl : index = -1 ∨ index = 0 := hindex <;> cases key <;>
    simp [press, up, down, pageUp, pageDown, Key.GoesDown] <;> omega

theorem Fits.press (hrows : 0 < rows) (h : c.Fits rows size) (key : Key) :
    (c.press rows size key).Fits rows size := by
  obtain h | ⟨rfl, hindex, hoffset⟩ := h
  · exact .inl (h.press key)
  · rw [press_empty hrows hindex hoffset]
    refine .inr ⟨rfl, ?_, rfl⟩
    by_cases hkey : key.GoesDown <;> simp [hkey]

/-- A selection that goes where it is told fits any list with an entry, whatever
it was before, if the window did not start before the list. -/
theorem onShow_select (hrows : 0 < rows) (hsize : 0 < size) (i : Int) (hoffset : 0 ≤ c.offset)
    (hwindow : c.offset + rows ≤ max size rows) : (c.select rows size i).OnShow rows size := by
  constructor <;> simp only [select] <;> omega

/-- Back to the top of another list. -/
theorem onShow_select_zero (hrows : 0 < rows) (hsize : 0 < size) (hoffset : 0 ≤ c.offset) :
    (c.select rows size 0).OnShow rows size := by
  constructor <;> simp only [select] <;> omega

end Cursor

end ListCursor
