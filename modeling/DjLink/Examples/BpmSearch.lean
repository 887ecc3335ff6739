import DjLink.Examples.CrateDigger
import DjLink.Library.PartialRun

/-!
The search of `example-bpm-search`: a range of tempos that the keys change, the
tracks of the database in that range, and a selected one. The ends of the range
and the step are whole numbers, which a `float` holds exactly; the histogram is
left out.
-/

namespace DjLink

open CrateDigger ListCursor PartialRun

namespace BpmSearch

def visibleRows : Int := 20

structure Range where
  bpmMin : Int := 120
  bpmMax : Int := 130
  bpmStep : Int := 5
  editingMin : Bool := true

structure OfApp where
  database : Option Database := none
  databaseLoaded : Bool := false
  errorMessage : String := ""
  range : Range := {}
  searchResults : List TrackId := []
  /-- `selectedIndex` and `scrollOffset`. -/
  cursor : Cursor := {}

inductive Pressed where
  | tab
  | up
  | down
  | left
  | right
  | pageUp
  | pageDown
  | plus
  | minus
  | other
  deriving DecidableEq

inductive Move where
  | load (result : Except String Database)
  | key (pressed : Pressed)

/-- What a key does to the range. -/
def Range.press (r : Range) : Pressed → Range
  | .tab => { r with editingMin := !r.editingMin }
  | .up =>
      if r.editingMin then { r with bpmMin := min (r.bpmMax - 1) (r.bpmMin + r.bpmStep) }
      else { r with bpmMax := min 300 (r.bpmMax + r.bpmStep) }
  | .down =>
      if r.editingMin then { r with bpmMin := max 20 (r.bpmMin - r.bpmStep) }
      else { r with bpmMax := max (r.bpmMin + 1) (r.bpmMax - r.bpmStep) }
  | .plus => { r with bpmStep := min 20 (r.bpmStep + 1) }
  | .minus => { r with bpmStep := max 1 (r.bpmStep - 1) }
  | .left | .right | .pageUp | .pageDown | .other => r

namespace OfApp

def performSearch (self : OfApp) : Option OfApp := do
  let database ← self.database
  return { self with
    searchResults := database.findTracksByBpmRange self.range.bpmMin self.range.bpmMax
    cursor := {} }

/-- An error leaves the last database loaded. -/
def loadDatabase (self : OfApp) (result : Except String Database) : Option OfApp :=
  let self := { self with errorMessage := "" }
  match result with
  | .error message => some { self with errorMessage := message }
  | .ok database => { self with database := some database, databaseLoaded := true }.performSearch

def scroll (self : OfApp) (key : Key) : OfApp :=
  { self with cursor := self.cursor.press visibleRows self.searchResults.length key }

def keyPressed (self : OfApp) (pressed : Pressed) : Option OfApp :=
  if !self.databaseLoaded then some self
  else
    let self := { self with range := self.range.press pressed }
    match pressed with
    -- the step and the end that is edited change no result
    | .up | .down => self.performSearch
    | .left => some (self.scroll .up)
    | .right => some (self.scroll .down)
    | .pageUp => some (self.scroll .pageUp)
    | .pageDown => some (self.scroll .pageDown)
    | .tab | .plus | .minus | .other => some self

def move (self : OfApp) : Move → Option OfApp
  | .load result => self.loadDatabase result
  | .key pressed => self.keyPressed pressed

end OfApp

/-! ### The invariant -/

structure Range.Valid (r : Range) : Prop where
  min_ge : 20 ≤ r.bpmMin
  min_lt : r.bpmMin < r.bpmMax
  max_le : r.bpmMax ≤ 300
  step_ge : 1 ≤ r.bpmStep
  step_le : r.bpmStep ≤ 20

theorem Range.Valid.press {r : Range} (h : r.Valid) (pressed : Pressed) :
    (r.press pressed).Valid := by
  obtain ⟨h₁, h₂, h₃, h₄, h₅⟩ := h
  cases pressed with
  | up | down =>
      rw [Range.press]
      split <;> constructor <;> simp only <;> omega
  | plus | minus => constructor <;> simp only [Range.press] <;> omega
  | tab | left | right | pageUp | pageDown | other => exact ⟨h₁, h₂, h₃, h₄, h₅⟩

/-- The results are those of the range in the database that is loaded. -/
structure OfApp.Sound (app : OfApp) : Prop where
  range : app.range.Valid
  loaded : app.databaseLoaded = true → ∃ database, app.database = some database ∧
    app.searchResults =
      database.findTracksByBpmRange app.range.bpmMin app.range.bpmMax
  fits : app.cursor.Fits visibleRows app.searchResults.length

variable {app : OfApp} {database : Database}

theorem sound_initial : ({} : OfApp).Sound where
  range := by constructor <;> decide
  loaded h := absurd h Bool.false_ne_true
  fits := Cursor.fits_initial (by decide) (Int.le_refl 0)

theorem performSearch_sound (app : OfApp) (hdatabase : app.database = some database)
    (hrange : app.range.Valid) : ∃ app', app.performSearch = some app' ∧ app'.Sound ∧
      app'.databaseLoaded = app.databaseLoaded ∧ app'.range = app.range := by
  refine ⟨{ app with
    searchResults := database.findTracksByBpmRange app.range.bpmMin app.range.bpmMax
    cursor := {} }, ?_, ⟨hrange, fun _ => ⟨database, hdatabase, rfl⟩, ?_⟩, rfl, rfl⟩
  · rw [OfApp.performSearch, hdatabase]
    rfl
  · exact Cursor.fits_initial (by decide) (Int.natCast_nonneg _)

theorem OfApp.Sound.keyPressed (h : app.Sound) (hloaded : app.databaseLoaded = true)
    (pressed : Pressed) : ∃ app', app.keyPressed pressed = some app' ∧ app'.Sound ∧
      app'.databaseLoaded = true ∧ app'.range = app.range.press pressed := by
  have hrange := h.range.press pressed
  obtain ⟨database, hdatabase, hresults⟩ := h.loaded hloaded
  have hsearch : ∃ app', { app with range := app.range.press pressed }.performSearch = some app' ∧
      app'.Sound ∧ app'.databaseLoaded = true ∧ app'.range = app.range.press pressed := by
    obtain ⟨app', happ', hsound, hloaded', hrange'⟩ := performSearch_sound
      { app with range := app.range.press pressed } hdatabase hrange
    exact ⟨app', happ', hsound, hloaded'.trans hloaded, hrange'⟩
  rw [OfApp.keyPressed.eq_def, if_neg (by rw [hloaded]; decide)]
  cases pressed with
  | up | down => exact hsearch
  | left =>
      exact ⟨_, rfl, ⟨hrange, fun _ => ⟨database, hdatabase, hresults⟩,
        h.fits.press (by decide) .up⟩, hloaded, rfl⟩
  | right =>
      exact ⟨_, rfl, ⟨hrange, fun _ => ⟨database, hdatabase, hresults⟩,
        h.fits.press (by decide) .down⟩, hloaded, rfl⟩
  | pageUp =>
      exact ⟨_, rfl, ⟨hrange, fun _ => ⟨database, hdatabase, hresults⟩,
        h.fits.press (by decide) .pageUp⟩, hloaded, rfl⟩
  | pageDown =>
      exact ⟨_, rfl, ⟨hrange, fun _ => ⟨database, hdatabase, hresults⟩,
        h.fits.press (by decide) .pageDown⟩, hloaded, rfl⟩
  | tab | plus | minus | other =>
      exact ⟨_, rfl, ⟨hrange, fun _ => ⟨database, hdatabase, hresults⟩, h.fits⟩, hloaded, rfl⟩

theorem OfApp.Sound.move (app : OfApp) (m : Move) (h : app.Sound) :
    ∃ app', app.move m = some app' ∧ app'.Sound := by
  cases m with
  | load result =>
      cases result with
      | error message => exact ⟨_, rfl, h.range, h.loaded, h.fits⟩
      | ok database =>
          obtain ⟨app', happ', hsound, -⟩ := performSearch_sound
            { app with errorMessage := "", database := some database, databaseLoaded := true } rfl
            h.range
          exact ⟨app', happ', hsound⟩
  | key pressed =>
      cases hloaded : app.databaseLoaded with
      | false => exact ⟨app, by simp [OfApp.move, OfApp.keyPressed, hloaded], h⟩
      | true =>
          obtain ⟨app', happ', hsound, -⟩ := h.keyPressed hloaded pressed
          exact ⟨app', happ', hsound⟩

/-! ### Whole runs -/

/-- **Searching.** Whatever is opened and pressed, the range is one of 20 to 300
with at least a step of 1 in it, the results are those of this range in the
database that is loaded, and with a result one is on show. -/
theorem search_run (moves : List Move) :
    ∃ app, run OfApp.move {} moves = some app ∧
      20 ≤ app.range.bpmMin ∧ app.range.bpmMin < app.range.bpmMax ∧ app.range.bpmMax ≤ 300 ∧
      (app.databaseLoaded = true → ∃ database, app.database = some database ∧
        app.searchResults =
          database.findTracksByBpmRange app.range.bpmMin app.range.bpmMax) ∧
      (app.searchResults ≠ [] → app.cursor.OnShow visibleRows app.searchResults.length) := by
  obtain ⟨app, happ, hsound⟩ := exists_run_of_total OfApp.Sound.move sound_initial moves
  refine ⟨app, happ, hsound.range.min_ge, hsound.range.min_lt, hsound.range.max_le, hsound.loaded,
    fun hne => hsound.fits.onShow ?_⟩
  have hlength := List.length_pos_iff.mpr hne
  omega

/-- With a database the keys act on the range alone. -/
theorem exists_run_keys (h : app.Sound) (hloaded : app.databaseLoaded = true)
    (keys : List Pressed) : ∃ app', run OfApp.move app (keys.map .key) = some app' ∧
      app'.range = keys.foldl Range.press app.range := by
  induction keys generalizing app with
  | nil => exact ⟨app, rfl, rfl⟩
  | cons key keys ih =>
      obtain ⟨app₁, h₁, hsound₁, hloaded₁, hrange₁⟩ := h.keyPressed hloaded key
      obtain ⟨app', happ', hrange'⟩ := ih hsound₁ hloaded₁
      refine ⟨app', ?_, by rw [hrange', hrange₁, List.foldl_cons]⟩
      rw [List.map_cons, run_cons, show app.move (.key key) = some app₁ from h₁, Option.bind_some]
      exact happ'

/-- A key that is pressed over and over. -/
theorem foldl_replicate_press {pressed : Pressed} {n : ℕ} {r : Range} (value : ℕ → Range)
    (hstart : value 0 = r) (h : ∀ i < n, (value i).press pressed = value (i + 1)) :
    (List.replicate n pressed).foldl Range.press r = value n := by
  subst hstart
  induction n with
  | zero => rfl
  | succ n ih =>
      rw [List.replicate_succ', List.foldl_append, ih fun i hi => h i (by omega)]
      exact h n (Nat.lt_succ_self n)

theorem foldl_up_max {lower upper : Int} {n : ℕ} (h : upper + n ≤ 300) :
    (List.replicate n .up).foldl Range.press ⟨lower, upper, 1, false⟩ =
      ⟨lower, upper + n, 1, false⟩ := by
  refine foldl_replicate_press (fun i => ⟨lower, upper + i, 1, false⟩) (by simp) fun i hi => ?_
  simp [Range.press]
  omega

theorem foldl_down_max {lower upper : Int} {n : ℕ} (h : lower + 1 ≤ upper - n) :
    (List.replicate n .down).foldl Range.press ⟨lower, upper, 1, false⟩ =
      ⟨lower, upper - n, 1, false⟩ := by
  refine foldl_replicate_press (fun i => ⟨lower, upper - i, 1, false⟩) (by simp) fun i hi => ?_
  simp [Range.press]
  omega

theorem foldl_up_min {lower upper : Int} {n : ℕ} (h : lower + n ≤ upper - 1) :
    (List.replicate n .up).foldl Range.press ⟨lower, upper, 1, true⟩ =
      ⟨lower + n, upper, 1, true⟩ := by
  refine foldl_replicate_press (fun i => ⟨lower + i, upper, 1, true⟩) (by simp) fun i hi => ?_
  simp [Range.press]
  omega

theorem foldl_down_min {lower upper : Int} {n : ℕ} (h : 20 ≤ lower - n) :
    (List.replicate n .down).foldl Range.press ⟨lower, upper, 1, true⟩ =
      ⟨lower - n, upper, 1, true⟩ := by
  refine foldl_replicate_press (fun i => ⟨lower - i, upper, 1, true⟩) (by simp) fun i hi => ?_
  simp [Range.press]
  omega

/-- The keys for a range: the step down to 1, the ends as far apart as they go,
and then the lower and the upper end to where they are wanted. -/
def keysFor (a b : Int) : List Pressed :=
  List.replicate 4 .minus ++ [.tab] ++ List.replicate 170 .up ++ [.tab] ++
    List.replicate 100 .down ++ List.replicate (a - 20).toNat .up ++ [.tab] ++
    List.replicate (300 - b).toNat .down

theorem foldl_keysFor {a b : Int} (ha : 20 ≤ a) (hab : a < b) (hb : b ≤ 300) :
    (keysFor a b).foldl Range.press {} = ⟨a, b, 1, false⟩ := by
  have hstep : (List.replicate 4 Pressed.minus).foldl Range.press {} = ⟨120, 130, 1, true⟩ := rfl
  have hmin : (20 : Int) + (a - 20).toNat = a := by omega
  have hmax : (300 : Int) - (300 - b).toNat = b := by omega
  simp only [keysFor, List.foldl_append, hstep, List.foldl_cons, List.foldl_nil]
  have htab : ∀ lower upper editing, Range.press ⟨lower, upper, 1, editing⟩ .tab =
      ⟨lower, upper, 1, !editing⟩ := fun _ _ _ => rfl
  rw [htab, Bool.not_true, foldl_up_max (by decide), htab, Bool.not_false,
    foldl_down_min (by decide)]
  show List.foldl _ (Range.press (List.foldl _ ⟨20, 300, 1, true⟩ _) _) _ = _
  rw [foldl_up_min (by omega), htab, Bool.not_true, foldl_down_max (by omega), hmin, hmax]

/-- **The ranges.** With a database loaded the keys lead to every whole range of
20 to 300, and to no other. -/
theorem range_reached_iff (database : Database) (a b : Int) :
    (∃ keys : List Pressed, ∃ app,
      run OfApp.move {} (.load (.ok database) :: keys.map .key) = some app ∧
        app.range.bpmMin = a ∧ app.range.bpmMax = b) ↔
      20 ≤ a ∧ a < b ∧ b ≤ 300 := by
  constructor
  · rintro ⟨keys, app, happ, rfl, rfl⟩
    obtain ⟨app', happ', hsound⟩ := exists_run_of_total OfApp.Sound.move sound_initial
      (.load (.ok database) :: keys.map .key)
    obtain rfl := Option.some.inj (happ.symm.trans happ')
    exact ⟨hsound.range.min_ge, hsound.range.min_lt, hsound.range.max_le⟩
  · rintro ⟨ha, hab, hb⟩
    obtain ⟨loaded, hloaded, hsound, hflag, hrange⟩ := performSearch_sound
      { database := some database, databaseLoaded := true } rfl sound_initial.range
    obtain ⟨app, happ, happrange⟩ := exists_run_keys hsound hflag (keysFor a b)
    refine ⟨keysFor a b, app, ?_, ?_⟩
    · rw [run_cons, show OfApp.move {} (.load (.ok database)) = some loaded from hloaded,
        Option.bind_some]
      exact happ
    · have hreached : app.range = ⟨a, b, 1, false⟩ := by
        rw [happrange, hrange]
        exact foldl_keysFor ha hab hb
      rw [hreached]
      exact ⟨rfl, rfl⟩

end BpmSearch

end DjLink
