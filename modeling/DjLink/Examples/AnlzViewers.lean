import DjLink.Examples.CrateDigger
import DjLink.Library.PartialRun

/-!
Five viewers of the analysis of a track: `example-beat-grid`,
`example-color-waveform`, `example-3band-waveform`, `example-cue-points` and
`example-song-structure`. A database is dropped on each of them and then the
folder of its analysis files; the list of the tracks has a selected one, and its
analysis is shown. They are one program with the differences of `Viewer`.

Two of them put the selection back to the top of the list when another database
is loaded. The other three show the analysis of the first track all the same,
next to the selection that was there before.
-/

namespace DjLink

open CrateDigger ListCursor PartialRun

namespace AnlzViewers

/-- A database, and what it has of the analysis of a track. -/
structure Analysed (δ : Type) where
  database : Database
  data : TrackId → δ

/-- What sets the viewers apart. -/
structure Viewer (δ : Type) where
  visibleTrackRows : Int
  rows_pos : 0 < visibleTrackRows
  /-- There are keys for a page. -/
  pages : Bool
  /-- `loadDatabase` begins with nothing loaded and ends at the top of the list. -/
  startsOver : Bool
  /-- `loadDatabase` keeps the text of an error. -/
  tellsError : Bool
  /-- The message for a folder without a database. -/
  early : Option String
  noData : δ

def beatGrid {BeatGrid : Type} : Viewer (Option BeatGrid) where
  visibleTrackRows := 12
  rows_pos := by decide
  pages := false
  startsOver := false
  tellsError := true
  early := none
  noData := none

def colorWaveform {Waveforms : Type} : Viewer (Option Waveforms) where
  visibleTrackRows := 15
  rows_pos := by decide
  pages := false
  startsOver := false
  tellsError := false
  early := none
  noData := none

def threeBandWaveform {Waveforms : Type} : Viewer (Option Waveforms) where
  visibleTrackRows := 15
  rows_pos := by decide
  pages := false
  startsOver := false
  tellsError := false
  early := none
  noData := none

def cuePoints : Viewer (List CuePoint) where
  visibleTrackRows := 15
  rows_pos := by decide
  pages := true
  startsOver := true
  tellsError := true
  early := some "Load database first"
  noData := []

/-- The song structure and the beat grid. -/
def songStructure {SongStructure BeatGrid : Type} :
    Viewer (Option SongStructure × Option BeatGrid) where
  visibleTrackRows := 12
  rows_pos := by decide
  pages := false
  startsOver := true
  tellsError := true
  early := some "Load database first"
  noData := (none, none)

variable {δ : Type}

structure OfApp (δ : Type) where
  database : Option (Analysed δ) := none
  databaseLoaded : Bool := false
  anlzLoaded : Bool := false
  errorMessage : String := ""
  trackIds : List TrackId := []
  /-- `selectedTrackIndex` and `trackScrollOffset`. -/
  cursor : Cursor := {}
  selectedTrack : Option TrackRow := none
  /-- The analysis on show. -/
  shown : δ

inductive Pressed where
  | move (key : Key)
  | other

inductive Move (δ : Type) where
  | load (result : Except String (Analysed δ))
  /-- A folder, with what the database has of every track afterwards. -/
  | loadAnlz (data : TrackId → δ)
  | key (pressed : Pressed)

namespace OfApp

variable (v : Viewer δ)

def initial : OfApp δ := { shown := v.noData }

def selectTrack (self : OfApp δ) (index : Int) : Option (OfApp δ) :=
  match at? self.trackIds index with
  | none => some self
  | some id => do
      let analysed ← self.database
      return { self with
        selectedTrack := analysed.database.getTrack id
        shown := if self.anlzLoaded then analysed.data id else v.noData }

def loadDatabase (self : OfApp δ) (result : Except String (Analysed δ)) : Option (OfApp δ) :=
  let self := { self with
    errorMessage := if v.tellsError then "" else self.errorMessage
    databaseLoaded := if v.startsOver then false else self.databaseLoaded }
  match result with
  | .error message =>
      some { self with errorMessage := if v.tellsError then message else self.errorMessage }
  | .ok analysed =>
      let self := { self with
        database := some analysed
        databaseLoaded := true
        trackIds := analysed.database.allTrackIds
        cursor := if v.startsOver then {} else self.cursor }
      -- the first track, wherever the cursor was left
      if self.trackIds.isEmpty then some self else self.selectTrack v 0

def loadAnlzFolder (self : OfApp δ) (data : TrackId → δ) : Option (OfApp δ) :=
  match self.database with
  | none => some { self with errorMessage := v.early.getD self.errorMessage }
  | some analysed =>
      let self := { self with
        database := some { analysed with data := data }
        anlzLoaded := true }
      -- -1 is let through here, and turned away in `selectTrack`
      if self.cursor.index < self.trackIds.length then self.selectTrack v self.cursor.index
      else some self

def keyPressed (self : OfApp δ) (pressed : Pressed) : Option (OfApp δ) :=
  if !self.databaseLoaded then some self
  else
    match pressed with
    | .move key =>
        if v.pages || key = .up || key = .down then
          let cursor := self.cursor.press v.visibleTrackRows self.trackIds.length key
          { self with cursor := cursor }.selectTrack v cursor.index
        else some self
    | .other => some self

def move (self : OfApp δ) : Move δ → Option (OfApp δ)
  | .load result => self.loadDatabase v result
  | .loadAnlz data => self.loadAnlzFolder v data
  | .key pressed => self.keyPressed v pressed

end OfApp

/-! ### The invariant -/

/-- The details on show are those of a track. -/
structure OfApp.Details (v : Viewer δ) (app : OfApp δ) (analysed : Analysed δ) (id : TrackId) :
    Prop where
  selectedTrack : app.selectedTrack = analysed.database.getTrack id
  shown : app.shown = if app.anlzLoaded then analysed.data id else v.noData

/-- The details are those of the highlighted track. -/
structure OfApp.Sound (v : Viewer δ) (app : OfApp δ) : Prop where
  unloaded : app.database = none → app.trackIds = []
  listed : ∀ analysed, app.database = some analysed →
    app.trackIds = analysed.database.allTrackIds
  fits : app.cursor.Fits v.visibleTrackRows app.trackIds.length
  details : ∀ analysed id, app.database = some analysed →
    at? app.trackIds app.cursor.index = some id → app.Details v analysed id

variable {v : Viewer δ} {app : OfApp δ}

theorem sound_initial (v : Viewer δ) : (OfApp.initial v).Sound v where
  unloaded _ := rfl
  listed _ h := nomatch h
  fits := Cursor.fits_initial v.rows_pos (Int.le_refl 0)
  details _ _ h := nomatch h

theorem selectTrack_eq (app : OfApp δ) {analysed : Analysed δ}
    (hdatabase : app.database = some analysed) {index : Int} {id : TrackId}
    (hid : at? app.trackIds index = some id) :
    app.selectTrack v index = some { app with
      selectedTrack := analysed.database.getTrack id
      shown := if app.anlzLoaded then analysed.data id else v.noData } := by
  simp [OfApp.selectTrack, hid, hdatabase]

theorem selectTrack_nil (app : OfApp δ) (hnil : app.trackIds = []) (index : Int) :
    app.selectTrack v index = some app := by
  simp [OfApp.selectTrack, hnil, at?]

/-- Selecting where the cursor is makes up for any change of the database. -/
theorem selectTrack_sound (app : OfApp δ) {analysed : Analysed δ}
    (hdatabase : app.database = some analysed)
    (hids : app.trackIds = analysed.database.allTrackIds)
    (hfits : app.cursor.Fits v.visibleTrackRows app.trackIds.length) :
    ∃ app', app.selectTrack v app.cursor.index = some app' ∧ app'.Sound v := by
  have hunloaded : app.database = none → app.trackIds = [] :=
    fun hnone => absurd (hdatabase.symm.trans hnone) (Option.some_ne_none analysed)
  have hlisted : ∀ other, app.database = some other →
      app.trackIds = other.database.allTrackIds := by
    intro other hother
    obtain rfl := Option.some.inj (hdatabase.symm.trans hother)
    exact hids
  cases hid : at? app.trackIds app.cursor.index with
  | none =>
      -- no track is highlighted, and nothing is said about the details
      refine ⟨app, by simp [OfApp.selectTrack, hid], hunloaded, hlisted, hfits,
        fun other id _ hother => ?_⟩
      exact nomatch hid.symm.trans hother
  | some id =>
      refine ⟨_, selectTrack_eq app hdatabase hid, hunloaded, hlisted, hfits,
        fun other id' hother hid' => ?_⟩
      obtain rfl := Option.some.inj (hdatabase.symm.trans hother)
      obtain rfl := Option.some.inj (hid.symm.trans hid')
      exact ⟨rfl, rfl⟩

theorem OfApp.Sound.loadDatabase (h : app.Sound v) (hover : v.startsOver = true)
    (result : Except String (Analysed δ)) :
    ∃ app', app.loadDatabase v result = some app' ∧ app'.Sound v := by
  cases result with
  | error message =>
      refine ⟨_, rfl, h.unloaded, h.listed, h.fits, fun analysed id hdatabase hid => ?_⟩
      have hdetails := h.details analysed id hdatabase hid
      exact ⟨hdetails.selectedTrack, hdetails.shown⟩
  | ok analysed =>
      obtain ⟨app', happ', hsound⟩ := selectTrack_sound
        { app with
          errorMessage := if v.tellsError then "" else app.errorMessage
          database := some analysed
          databaseLoaded := true
          trackIds := analysed.database.allTrackIds
          cursor := {} } rfl rfl
        (Cursor.fits_initial v.rows_pos (Int.natCast_nonneg _))
      refine ⟨app', ?_, hsound⟩
      rw [OfApp.loadDatabase.eq_def]
      simp only [hover, if_true]
      split
      next hempty => rw [← happ', selectTrack_nil _ (List.isEmpty_iff.mp hempty)]
      next => exact happ'

theorem OfApp.Sound.loadAnlzFolder (h : app.Sound v) (data : TrackId → δ) :
    ∃ app', app.loadAnlzFolder v data = some app' ∧ app'.Sound v := by
  rw [OfApp.loadAnlzFolder.eq_def]
  cases hdatabase : app.database with
  | none =>
      exact ⟨_, rfl, fun _ => h.unloaded hdatabase, fun _ hsome => (nomatch hsome), h.fits,
        fun _ _ hsome => (nomatch hsome)⟩
  | some analysed =>
      obtain ⟨app', happ', hsound⟩ := selectTrack_sound
        { app with database := some { analysed with data := data }, anlzLoaded := true } rfl
        (h.listed analysed hdatabase) h.fits
      refine ⟨app', ?_, hsound⟩
      dsimp only
      split
      next => exact happ'
      next hlt =>
        -- only an empty list has its selection behind it
        have hnil : app.trackIds = [] := by
          have hindex := h.fits.index_cases
          rw [← List.length_eq_zero_iff]
          omega
        exact (selectTrack_nil _ (by exact hnil) _).symm.trans happ'

theorem OfApp.Sound.keyPressed (h : app.Sound v) (pressed : Pressed) :
    ∃ app', app.keyPressed v pressed = some app' ∧ app'.Sound v := by
  rw [OfApp.keyPressed.eq_def]
  split
  next => exact ⟨app, rfl, h⟩
  next =>
    cases pressed with
    | other => exact ⟨app, rfl, h⟩
    | move key =>
        dsimp only
        split
        next =>
          have hfits := h.fits.press v.rows_pos key
          obtain hdatabase | ⟨analysed, hdatabase⟩ := Option.eq_none_or_eq_some app.database
          · have hnil := h.unloaded hdatabase
            refine ⟨_, selectTrack_nil _ (by exact hnil) _, fun _ => hnil, fun _ hsome => ?_, hfits,
              fun _ _ hsome => ?_⟩
            · exact nomatch hdatabase.symm.trans hsome
            · exact nomatch hdatabase.symm.trans hsome
          · exact selectTrack_sound
              { app with
                cursor := app.cursor.press v.visibleTrackRows app.trackIds.length key }
              hdatabase (h.listed analysed hdatabase) hfits
        next => exact ⟨app, rfl, h⟩

theorem OfApp.Sound.move (hover : v.startsOver = true) (app : OfApp δ) (m : Move δ)
    (h : app.Sound v) : ∃ app', app.move v m = some app' ∧ app'.Sound v := by
  cases m with
  | load result => exact h.loadDatabase hover result
  | loadAnlz data => exact h.loadAnlzFolder data
  | key pressed => exact h.keyPressed pressed

/-! ### Whole runs -/

/-- Two tracks that can be told apart. -/
def twoTracks : Database where
  allTrackIds := [1, 2]
  getTrack id := some
    { title := toString id, artistId := 0, albumId := 0, genreId := 0, keyId := 0, labelId := 0,
      colorId := 0, artworkId := 0, durationSeconds := 0 }

/-- Otherwise a load shows the first track next to the old selection. -/
theorem loadDatabase_first (hover : v.startsOver = false) (app : OfApp δ) (analysed : Analysed δ)
    {id : TrackId} {ids : List TrackId} (hids : analysed.database.allTrackIds = id :: ids) :
    ∃ app', app.loadDatabase v (.ok analysed) = some app' ∧ app'.databaseLoaded = true ∧
      app'.database = some analysed ∧ app'.trackIds = id :: ids ∧ app'.cursor = app.cursor ∧
      app'.Details v analysed id := by
  rw [OfApp.loadDatabase.eq_def]
  simp only [hids, hover, Bool.false_eq_true, if_false, List.isEmpty_cons]
  exact ⟨_, selectTrack_eq _ rfl (at?_cons_zero id ids), rfl, rfl, rfl, rfl, rfl, rfl⟩

theorem keyPressed_down (v : Viewer δ) (app : OfApp δ) {analysed : Analysed δ}
    (hloaded : app.databaseLoaded = true) (hdatabase : app.database = some analysed)
    (hids : app.trackIds = [1, 2]) (hcursor : app.cursor = {}) :
    ∃ app', app.keyPressed v (.move .down) = some app' ∧ app'.cursor.index = 1 := by
  have hindex : (app.cursor.press v.visibleTrackRows app.trackIds.length .down).index = 1 := by
    rw [hcursor, hids]
    rfl
  have hid : at? app.trackIds 1 = some 2 := by
    rw [hids]
    rfl
  refine ⟨{ app with
    cursor := app.cursor.press v.visibleTrackRows app.trackIds.length .down
    selectedTrack := analysed.database.getTrack 2
    shown := if app.anlzLoaded then analysed.data 2 else v.noData }, ?_, hindex⟩
  rw [OfApp.keyPressed.eq_def, hloaded]
  simp only [Bool.not_true, Bool.false_eq_true, if_false, decide_true, Bool.or_true, if_true,
    hindex]
  exact selectTrack_eq _ (by exact hdatabase) (by exact hid)

/-- Whatever is dropped and pressed, with a track in the list one is on show, and
the track and the analysis that are shown are those of the highlighted one. -/
def Viewer.ShowsHighlighted (v : Viewer δ) : Prop :=
  ∀ moves : List (Move δ), ∃ app, run (OfApp.move v) (OfApp.initial v) moves = some app ∧
    (app.trackIds ≠ [] → app.cursor.OnShow v.visibleTrackRows app.trackIds.length ∧
      ∃ analysed id, app.database = some analysed ∧
        app.trackIds = analysed.database.allTrackIds ∧
        at? app.trackIds app.cursor.index = some id ∧ app.Details v analysed id)

/-- In some run the track that is shown is another one than the highlighted. -/
def Viewer.ShowsAnother (v : Viewer δ) : Prop :=
  ∃ (moves : List (Move δ)) (app : OfApp δ) (analysed : Analysed δ) (highlighted shown : TrackId),
    run (OfApp.move v) (OfApp.initial v) moves = some app ∧ app.database = some analysed ∧
      at? app.trackIds app.cursor.index = some highlighted ∧ app.Details v analysed shown ∧
      analysed.database.getTrack shown ≠ analysed.database.getTrack highlighted

/-- A database is dropped, the highlight goes down, and the database is dropped
again: the first track is shown beside the old highlight. -/
theorem shows_another_of_keeps (v : Viewer δ) (hover : v.startsOver = false) : v.ShowsAnother := by
  let analysed : Analysed δ := ⟨twoTracks, fun _ => v.noData⟩
  obtain ⟨app₁, h₁, hloaded₁, hdatabase₁, hids₁, hcursor₁, -⟩ :=
    loadDatabase_first hover (OfApp.initial v) analysed rfl
  obtain ⟨app₂, h₂, hindex₂⟩ := keyPressed_down v app₁ hloaded₁ hdatabase₁ hids₁ hcursor₁
  obtain ⟨app₃, h₃, -, hdatabase₃, hids₃, hcursor₃, hdetails₃⟩ :=
    loadDatabase_first hover app₂ analysed rfl
  have hrun : run (OfApp.move v) (OfApp.initial v)
      [.load (.ok analysed), .key (.move .down), .load (.ok analysed)] = some app₃ := by
    simp only [run_cons, run_nil, OfApp.move, h₁, h₂, h₃, Option.bind_some]
  have hhighlighted : at? app₃.trackIds app₃.cursor.index = some 2 := by
    rw [hcursor₃, hindex₂, hids₃]
    rfl
  have hne : twoTracks.getTrack 1 ≠ twoTracks.getTrack 2 := fun heq =>
    absurd (congrArg (Option.map TrackRow.title) heq) (by decide)
  exact ⟨_, app₃, analysed, 2, 1, hrun, hdatabase₃, hhighlighted, hdetails₃, hne⟩

theorem Viewer.ShowsAnother.not_showsHighlighted {v : Viewer δ} (h : v.ShowsAnother) :
    ¬ v.ShowsHighlighted := by
  obtain ⟨moves, app, analysed, highlighted, shown, hrun, hdatabase, hid, hdetails, hne⟩ := h
  intro hruns
  obtain ⟨other, hother, hshown⟩ := hruns moves
  obtain rfl := Option.some.inj (hrun.symm.trans hother)
  have hnonempty : app.trackIds ≠ [] := by
    intro hnil
    simp [hnil, at?] at hid
  obtain ⟨-, analysed', id, hdatabase', -, hid', hdetails'⟩ := hshown hnonempty
  obtain rfl := Option.some.inj (hdatabase.symm.trans hdatabase')
  obtain rfl := Option.some.inj (hid.symm.trans hid')
  exact hne (hdetails.selectedTrack.symm.trans hdetails'.selectedTrack)

/-- The highlighted track is shown exactly in the viewers that start over with
every database. -/
theorem details_of_highlighted_iff (v : Viewer δ) :
    v.ShowsHighlighted ↔ v.startsOver = true := by
  constructor
  · intro hruns
    exact Bool.of_not_eq_false fun hover =>
      (shows_another_of_keeps v hover).not_showsHighlighted hruns
  · intro hover moves
    obtain ⟨app, happ, hsound⟩ := exists_run_of_total (OfApp.Sound.move hover) (sound_initial v)
      moves
    refine ⟨app, happ, fun hne => ?_⟩
    have hlength := List.length_pos_iff.mpr hne
    have hshow := hsound.fits.onShow (by omega)
    obtain ⟨id, hid⟩ := Option.isSome_iff_exists.mp
      ((at?_isSome_iff _ _).mpr ⟨hshow.index_nonneg, hshow.index_lt⟩)
    obtain ⟨analysed, hdatabase⟩ := Option.ne_none_iff_exists'.mp fun hnone =>
      hne (hsound.unloaded hnone)
    exact ⟨hshow, analysed, id, hdatabase, hsound.listed analysed hdatabase, hid,
      hsound.details analysed id hdatabase hid⟩

/-- **Details of a track.** Two of the five viewers show the highlighted track in
every run, and three show another one in some run. -/
theorem viewers_show_highlighted (BeatGrid Waveforms SongStructure : Type) :
    cuePoints.ShowsHighlighted ∧
      (songStructure : Viewer (Option SongStructure × Option BeatGrid)).ShowsHighlighted ∧
      (beatGrid : Viewer (Option BeatGrid)).ShowsAnother ∧
      (colorWaveform : Viewer (Option Waveforms)).ShowsAnother ∧
      (threeBandWaveform : Viewer (Option Waveforms)).ShowsAnother :=
  ⟨(details_of_highlighted_iff _).mpr rfl, (details_of_highlighted_iff _).mpr rfl,
    shows_another_of_keeps _ rfl, shows_another_of_keeps _ rfl, shows_another_of_keeps _ rfl⟩

end AnlzViewers

end DjLink
