import Mathlib.Data.Set.Basic
import DjLink.Examples.CrateDigger
import DjLink.Library.PartialRun

/-!
The browser of `example-rekordbox-browser`: four lists of a database and a fifth
view that is not implemented, a selection that the keys move, and the details
of a track that `Enter` looks up. What is drawn from the rows is left out.

`Enter` checks the selection against the end of the list only, so that with no
tracks in the list a step down and `Enter` read in front of it. A step that
reads outside a list has no outcome in the model.
-/

namespace DjLink

open CrateDigger ListCursor PartialRun

namespace RekordboxBrowser

inductive ViewMode where
  | tracks
  | artists
  | albums
  | genres
  | playlists
  deriving DecidableEq

def visibleRows : Int := 25

structure OfApp where
  database : Option Database := none
  databaseLoaded : Bool := false
  errorMessage : String := ""
  currentView : ViewMode := .tracks
  trackIds : List TrackId := []
  artistIds : List ArtistId := []
  albumIds : List AlbumId := []
  genreIds : List GenreId := []
  /-- `selectedIndex` and `scrollOffset`. -/
  cursor : Cursor := {}
  selectedTrack : Option TrackRow := none

/-- The keys of `keyPressed`; `view` are the digits. -/
inductive Pressed where
  | move (key : Key)
  | tab
  | view (view : ViewMode)
  | enter
  | other

def ViewMode.next : ViewMode → ViewMode
  | .tracks => .artists
  | .artists => .albums
  | .albums => .genres
  | .genres => .playlists
  | .playlists => .tracks

inductive Move where
  | load (result : Except String Database)
  | key (pressed : Pressed)

namespace OfApp

def refreshLists (self : OfApp) : OfApp :=
  match self.database with
  | none => self
  | some database =>
      { self with
        trackIds := database.allTrackIds
        artistIds := database.allArtistIds
        albumIds := database.allAlbumIds
        genreIds := database.allGenreIds
        cursor := {}
        selectedTrack := none }

def loadDatabase (self : OfApp) (result : Except String Database) : OfApp :=
  let self := { self with errorMessage := "", databaseLoaded := false }
  match result with
  | .error message => { self with errorMessage := message }
  | .ok database => { self with database := some database, databaseLoaded := true }.refreshLists

def listSize (self : OfApp) : Int :=
  match self.currentView with
  | .tracks => self.trackIds.length
  | .artists => self.artistIds.length
  | .albums => self.albumIds.length
  | .genres => self.genreIds.length
  | .playlists => 0

/-- `database->get_track(trackIds[selectedIndex])`. -/
def lookUp (self : OfApp) : Option OfApp := do
  let id ← at? self.trackIds self.cursor.index
  let database ← self.database
  return { self with selectedTrack := database.getTrack id }

def keyPressed (self : OfApp) (pressed : Pressed) : Option OfApp :=
  if !self.databaseLoaded then some self
  else
    match pressed with
    | .move key => some { self with cursor := self.cursor.press visibleRows self.listSize key }
    | .tab => some { self with currentView := self.currentView.next, cursor := {} }
    | .view view => some { self with currentView := view, cursor := {} }
    | .enter =>
        -- -1 is let through
        if self.currentView = .tracks && self.cursor.index < self.trackIds.length then self.lookUp
        else some self
    | .other => some self

def move (self : OfApp) : Move → Option OfApp
  | .load result => some (self.loadDatabase result)
  | .key pressed => self.keyPressed pressed

end OfApp

/-- The database that a move opens. -/
def Move.opens : Move → Option Database
  | .load (.ok database) => some database
  | .load (.error _) => none
  | .key _ => none

/-! ### The invariant -/

/-- Of the databases that may be opened the last is loaded, and the list of
tracks is its list; the selection fits the list of the view; and the details are
those of a track in the list. -/
structure OfApp.Sound (app : OfApp) (opened : Set Database) : Prop where
  loaded : app.databaseLoaded = true →
    ∃ database ∈ opened, app.database = some database ∧ app.trackIds = database.allTrackIds
  fits : app.cursor.Fits visibleRows app.listSize
  selected : ∀ track, app.selectedTrack = some track →
    ∃ database, app.database = some database ∧
      ∃ id ∈ app.trackIds, database.getTrack id = some track

variable {app : OfApp} {opened : Set Database}

theorem listSize_nonneg (app : OfApp) : 0 ≤ app.listSize := by
  cases h : app.currentView <;> simp [OfApp.listSize, h]

theorem fits_reset {size : Int} (h : 0 ≤ size) : Cursor.Fits visibleRows size {} :=
  Cursor.fits_initial (by decide) h

theorem sound_initial (opened : Set Database) : ({} : OfApp).Sound opened where
  loaded h := by cases h
  fits := fits_reset (Int.le_refl 0)
  selected track h := by cases h

theorem OfApp.Sound.loadDatabase (h : app.Sound opened) {result : Except String Database}
    (hresult : ∀ database, result = .ok database → database ∈ opened) :
    (app.loadDatabase result).Sound opened := by
  cases result with
  | error message => exact ⟨fun hloaded => absurd hloaded Bool.false_ne_true, h.fits, h.selected⟩
  | ok database =>
      exact ⟨fun _ => ⟨database, hresult database rfl, rfl, rfl⟩,
        fits_reset (listSize_nonneg _), fun track htrack => nomatch htrack⟩

/-- With a track in the list `Enter` finds the track that it looks up. -/
theorem OfApp.Sound.lookUp (h : app.Sound opened) (hloaded : app.databaseLoaded = true)
    (hview : app.currentView = .tracks) (htracks : app.trackIds ≠ []) :
    ∃ app', app.lookUp = some app' ∧ app'.Sound opened := by
  obtain ⟨database, hopened, hdatabase, hlist⟩ := h.loaded hloaded
  have hsize : app.listSize = app.trackIds.length := by simp [OfApp.listSize, hview]
  have hlength : 0 < app.trackIds.length := List.length_pos_iff.mpr htracks
  have hshow := h.fits.onShow (by omega)
  obtain ⟨id, hid⟩ := Option.isSome_iff_exists.mp
    ((at?_isSome_iff app.trackIds app.cursor.index).mpr
      ⟨hshow.index_nonneg, hsize ▸ hshow.index_lt⟩)
  refine ⟨{ app with selectedTrack := database.getTrack id }, ?_, ?_⟩
  · simp [OfApp.lookUp, hid, hdatabase]
  · exact ⟨h.loaded, h.fits, fun track htrack => ⟨database, hdatabase, id, mem_of_at? hid, htrack⟩⟩

theorem OfApp.Sound.keyPressed (h : app.Sound opened)
    (htracks : ∀ database ∈ opened, database.allTrackIds ≠ []) (pressed : Pressed) :
    ∃ app', app.keyPressed pressed = some app' ∧ app'.Sound opened := by
  rw [OfApp.keyPressed.eq_def]
  split
  next => exact ⟨app, rfl, h⟩
  next hloaded =>
    have hloaded : app.databaseLoaded = true := by simpa using hloaded
    cases pressed with
    | move key => exact ⟨_, rfl, h.loaded, h.fits.press (by decide) key, h.selected⟩
    | tab => exact ⟨_, rfl, h.loaded, fits_reset (listSize_nonneg _), h.selected⟩
    | view view => exact ⟨_, rfl, h.loaded, fits_reset (listSize_nonneg _), h.selected⟩
    | other => exact ⟨app, rfl, h⟩
    | enter =>
        dsimp only
        split
        next henter =>
          have hview : app.currentView = .tracks := by
            simp only [Bool.and_eq_true, decide_eq_true_eq] at henter
            exact henter.1
          obtain ⟨database, hopened, -, hlist⟩ := h.loaded hloaded
          -- not empty, so that the selection is in the list and not in front of it
          exact h.lookUp hloaded hview (hlist ▸ htracks database hopened)
        next => exact ⟨app, rfl, h⟩

/-- What a move opens is one of the databases that may be opened. -/
def Move.OpensFrom (opened : Set Database) (m : Move) : Prop :=
  ∀ database, m.opens = some database → database ∈ opened

theorem OfApp.Sound.move (htracks : ∀ database ∈ opened, database.allTrackIds ≠ []) (app : OfApp)
    (m : Move) (h : app.Sound opened) (hm : m.OpensFrom opened) :
    ∃ app', app.move m = some app' ∧ app'.Sound opened := by
  cases m with
  | load result =>
      refine ⟨_, rfl, h.loadDatabase fun database hresult => hm database ?_⟩
      rw [hresult]
      rfl
  | key pressed => exact h.keyPressed htracks pressed

/-! ### Whole runs -/

/-- **Browsing.** Whatever is opened and pressed, no step reads outside the list
of tracks, a list with an entry shows its selection, and the details shown are
those of a track of the database; and that is so exactly if every database that
may be opened has a track. -/
theorem browses_iff (opened : Set Database) :
    (∀ moves : List Move, (∀ m ∈ moves, m.OpensFrom opened) →
      ∃ app, run OfApp.move {} moves = some app ∧
        (0 < app.listSize → app.cursor.OnShow visibleRows app.listSize) ∧
        ∀ track, app.selectedTrack = some track → ∃ database, app.database = some database ∧
          ∃ id ∈ app.trackIds, database.getTrack id = some track) ↔
      ∀ database ∈ opened, database.allTrackIds ≠ [] := by
  constructor
  · intro hruns database hopened hnone
    have hopens : ∀ m ∈ [Move.load (.ok database), .key (.move .down), .key .enter],
        m.OpensFrom opened := by
      intro m hm database' hm'
      obtain rfl | rfl | rfl : m = _ ∨ m = _ ∨ m = _ := by simpa using hm
      · obtain rfl : database = database' := Option.some.inj hm'
        exact hopened
      · cases hm'
      · cases hm'
    obtain ⟨app, happ, -⟩ := hruns _ hopens
    simp [OfApp.move, OfApp.loadDatabase, OfApp.refreshLists, OfApp.keyPressed, OfApp.listSize,
      OfApp.lookUp, Cursor.press, Cursor.down, at?, hnone] at happ
  · intro htracks moves hmoves
    obtain ⟨app, happ, hsound⟩ :=
      exists_run (OfApp.Sound.move htracks) (sound_initial opened) hmoves
    exact ⟨app, happ, hsound.fits.onShow, hsound.selected⟩

end RekordboxBrowser

end DjLink
