import Mathlib.Data.Set.Basic
import DjLink.Examples.CrateDigger
import DjLink.Library.PartialRun

/-!
The browser of `example-playlist-browser`: the playlists of a database in one
panel and the tracks of the selected one in the other. Of a frame the model has
what it reads: the rows of either panel and the playlist named above the
tracks. How a name is found and cut to length is left out.

The selection is moved first and the tracks are looked up for it afterwards, so
that the panels agree as long as the lookup is not refused. Without playlists it
is: a step down leaves the selection in front of the list, where the header of
the next frame reads.
-/

namespace DjLink

open CrateDigger ListCursor PartialRun

namespace PlaylistBrowser

def visibleRows : Int := 25

inductive FocusPanel where
  | playlists
  | tracks
  deriving DecidableEq

structure OfApp where
  database : Option Database := none
  databaseLoaded : Bool := false
  errorMessage : String := ""
  playlistIds : List PlaylistId := []
  /-- `selectedPlaylistIndex` and `playlistScrollOffset`. -/
  playlistCursor : Cursor := {}
  playlistTracks : List TrackId := []
  /-- `selectedTrackIndex` and `trackScrollOffset`. -/
  trackCursor : Cursor := {}
  focusPanel : FocusPanel := .playlists

inductive Pressed where
  | tab
  | left
  | right
  | up
  | down
  | other

inductive Move where
  | load (result : Except String Database)
  | key (pressed : Pressed)

namespace OfApp

/-- Nothing happens at an index outside the list. -/
def selectPlaylist (self : OfApp) (index : Int) : Option OfApp :=
  match at? self.playlistIds index with
  | none => some self
  | some id => do
      let database ← self.database
      return { self with
        playlistTracks := (database.getPlaylist id).getD []
        trackCursor := {} }

/-- An error leaves the last database loaded. -/
def loadDatabase (self : OfApp) (result : Except String Database) : Option OfApp :=
  let self := { self with errorMessage := "" }
  match result with
  | .error message => some { self with errorMessage := message }
  | .ok database =>
      let self := { self with
        database := some database
        databaseLoaded := true
        playlistIds := database.allPlaylistIds
        playlistCursor := {} }
      -- without playlists the tracks of the last database stay on show
      if self.playlistIds.isEmpty then some self else self.selectPlaylist 0

def movePlaylist (self : OfApp) (cursor : Cursor) : Option OfApp :=
  { self with playlistCursor := cursor }.selectPlaylist cursor.index

def keyPressed (self : OfApp) (pressed : Pressed) : Option OfApp :=
  let maxPlaylists : Int := self.playlistIds.length
  let maxTracks : Int := self.playlistTracks.length
  if !self.databaseLoaded then some self
  else
    match pressed with
    | .tab =>
        some { self with focusPanel := if self.focusPanel = .playlists then .tracks else .playlists }
    | .left => some { self with focusPanel := .playlists }
    | .right => some { self with focusPanel := .tracks }
    | .up =>
        if self.focusPanel = .playlists then self.movePlaylist self.playlistCursor.up
        else some { self with trackCursor := self.trackCursor.up }
    | .down =>
        if self.focusPanel = .playlists then
          self.movePlaylist (self.playlistCursor.down visibleRows maxPlaylists)
        else some { self with trackCursor := self.trackCursor.down visibleRows maxTracks }
    | .other => some self

def move (self : OfApp) : Move → Option OfApp
  | .load result => self.loadDatabase result
  | .key pressed => self.keyPressed pressed

end OfApp

/-- What a frame shows of a loaded database. -/
structure View where
  playlists : List PlaylistId
  header : Option PlaylistId
  tracks : List TrackRow

namespace OfApp

def draw (self : OfApp) : Option View := do
  let playlists ← readWindow visibleRows self.playlistIds self.playlistCursor.offset
  let header ← readBelow self.playlistIds self.playlistCursor.index
  let ids ← readWindow visibleRows self.playlistTracks self.trackCursor.offset
  let database ← self.database
  return { playlists := playlists, header := header, tracks := ids.filterMap database.getTrack }

end OfApp

/-- The database that a move opens. -/
def Move.opens : Move → Option Database
  | .load (.ok database) => some database
  | .load (.error _) => none
  | .key _ => none

/-- What a move opens is one of the databases that may be opened. -/
def Move.OpensFrom (opened : Set Database) (m : Move) : Prop :=
  ∀ database, m.opens = some database → database ∈ opened

/-! ### The invariant -/

/-- The panels agree: a playlist of the database is selected and on show, and
the tracks are its tracks. -/
structure OfApp.Browses (app : OfApp) (database : Database) : Prop where
  database_eq : app.database = some database
  playlistIds_eq : app.playlistIds = database.allPlaylistIds
  onShow : app.playlistCursor.OnShow visibleRows app.playlistIds.length
  selected : ∃ id, at? app.playlistIds app.playlistCursor.index = some id ∧
    app.playlistTracks = (database.getPlaylist id).getD []
  fits : app.trackCursor.Fits visibleRows app.playlistTracks.length

/-- What is loaded is browsed. -/
def OfApp.Sound (app : OfApp) (opened : Set Database) : Prop :=
  app.databaseLoaded = true → ∃ database ∈ opened, app.Browses database

variable {app : OfApp} {database : Database} {opened : Set Database}

/-- Selecting an entry of the list, whatever the tracks were before. -/
theorem selectPlaylist_browses (app : OfApp) {cursor : Cursor}
    (hdatabase : app.database = some database) (hids : app.playlistIds = database.allPlaylistIds)
    (hcursor : app.playlistCursor = cursor)
    (hshow : cursor.OnShow visibleRows app.playlistIds.length) :
    ∃ app', app.selectPlaylist cursor.index = some app' ∧ app'.Browses database ∧
      app'.databaseLoaded = app.databaseLoaded := by
  obtain ⟨id, hid⟩ := Option.isSome_iff_exists.mp
    ((at?_isSome_iff app.playlistIds cursor.index).mpr ⟨hshow.index_nonneg, hshow.index_lt⟩)
  refine ⟨{ app with playlistTracks := (database.getPlaylist id).getD [], trackCursor := {} },
    ?_, ⟨hdatabase, hids, hcursor ▸ hshow, ⟨id, hcursor ▸ hid, rfl⟩, ?_⟩, rfl⟩
  · simp [OfApp.selectPlaylist, hid, hdatabase]
  · exact Cursor.fits_initial (by decide) (Int.natCast_nonneg _)

theorem loadDatabase_sound (h : app.Sound opened) {result : Except String Database}
    (hopened : ∀ database, result = .ok database → database ∈ opened)
    (hlists : ∀ database ∈ opened, database.allPlaylistIds ≠ []) :
    ∃ app', app.loadDatabase result = some app' ∧ app'.Sound opened := by
  cases result with
  | error message =>
      refine ⟨{ app with errorMessage := message }, rfl, fun hloaded => ?_⟩
      obtain ⟨database, hmem, hbrowses⟩ := h hloaded
      -- the message is no part of what is browsed
      exact ⟨database, hmem, ⟨hbrowses.database_eq, hbrowses.playlistIds_eq, hbrowses.onShow,
        hbrowses.selected, hbrowses.fits⟩⟩
  | ok database =>
      have hmem := hopened database rfl
      have hne := hlists database hmem
      have hlength : 0 < database.allPlaylistIds.length := List.length_pos_iff.mpr hne
      have hshow : Cursor.OnShow visibleRows database.allPlaylistIds.length {} :=
        (Cursor.fits_initial (by decide) (Int.natCast_nonneg _)).onShow (by omega)
      obtain ⟨app', happ', hbrowses, -⟩ := selectPlaylist_browses
        { app with
          errorMessage := "", database := some database, databaseLoaded := true,
          playlistIds := database.allPlaylistIds, playlistCursor := {} } rfl rfl rfl hshow
      refine ⟨app', ?_, fun _ => ⟨database, hmem, hbrowses⟩⟩
      rw [OfApp.loadDatabase, if_neg (by simpa using hne)]
      exact happ'

theorem movePlaylist_sound (hmem : database ∈ opened) (h : app.Browses database) {cursor : Cursor}
    (hshow : cursor.OnShow visibleRows app.playlistIds.length) :
    ∃ app', app.movePlaylist cursor = some app' ∧ app'.Sound opened := by
  obtain ⟨app', happ', hbrowses, -⟩ := selectPlaylist_browses
    { app with playlistCursor := cursor } h.database_eq h.playlistIds_eq rfl hshow
  exact ⟨app', happ', fun _ => ⟨database, hmem, hbrowses⟩⟩

/-- A change of the track cursor or of the focus alone. -/
theorem OfApp.Browses.frame (h : app.Browses database) {cursor : Cursor} {focus : FocusPanel}
    (hfits : cursor.Fits visibleRows app.playlistTracks.length) :
    { app with trackCursor := cursor, focusPanel := focus }.Browses database :=
  ⟨h.database_eq, h.playlistIds_eq, h.onShow, h.selected, hfits⟩

theorem keyPressed_sound (h : app.Sound opened) (pressed : Pressed) :
    ∃ app', app.keyPressed pressed = some app' ∧ app'.Sound opened := by
  rw [OfApp.keyPressed.eq_def]
  dsimp only
  split
  next => exact ⟨app, rfl, h⟩
  next hloaded =>
    obtain ⟨database, hmem, hb⟩ := h (by simpa using hloaded)
    cases pressed with
    | tab => exact ⟨_, rfl, fun _ => ⟨database, hmem, hb.frame hb.fits⟩⟩
    | left => exact ⟨_, rfl, fun _ => ⟨database, hmem, hb.frame hb.fits⟩⟩
    | right => exact ⟨_, rfl, fun _ => ⟨database, hmem, hb.frame hb.fits⟩⟩
    | other => exact ⟨app, rfl, h⟩
    | up =>
        dsimp only
        split
        · exact movePlaylist_sound hmem hb hb.onShow.up
        · exact ⟨_, rfl, fun _ => ⟨database, hmem, hb.frame (hb.fits.press (by decide) .up)⟩⟩
    | down =>
        dsimp only
        split
        · exact movePlaylist_sound hmem hb hb.onShow.down
        · exact ⟨_, rfl, fun _ => ⟨database, hmem, hb.frame (hb.fits.press (by decide) .down)⟩⟩

theorem move_sound (hlists : ∀ database ∈ opened, database.allPlaylistIds ≠ []) (app : OfApp)
    (m : Move) (h : app.Sound opened) (hm : m.OpensFrom opened) :
    ∃ app', app.move m = some app' ∧ app'.Sound opened := by
  cases m with
  | load result =>
      refine loadDatabase_sound h (fun database hresult => hm database ?_) hlists
      rw [hresult]
      rfl
  | key pressed => exact keyPressed_sound h pressed

/-- A frame of a browsed database shows the window of either list. -/
theorem OfApp.Browses.draw (h : app.Browses database) :
    ∃ id, at? database.allPlaylistIds app.playlistCursor.index = some id ∧
      app.playlistTracks = (database.getPlaylist id).getD [] ∧
      app.draw = some
        { playlists :=
            (database.allPlaylistIds.drop app.playlistCursor.offset.toNat).take visibleRows.toNat
          header := some id
          tracks := (((((database.getPlaylist id).getD []).drop
            app.trackCursor.offset.toNat).take visibleRows.toNat)).filterMap database.getTrack } := by
  obtain ⟨hdatabase, hids, hshow, ⟨id, hid, htracks⟩, hfits⟩ := h
  refine ⟨id, hids ▸ hid, htracks, ?_⟩
  rw [OfApp.draw, readWindow_eq app.playlistIds (by decide) hshow.offset_nonneg,
    readBelow_of_at? hid, readWindow_eq app.playlistTracks (by decide) hfits.offset_nonneg,
    hdatabase, hids, htracks]
  rfl

/-! ### Whole runs -/

/-- **Browsing playlists.** Whatever is opened and pressed, a loaded database can
be drawn, and tracks on show are tracks of the playlist that is named above
them and highlighted; and that is so exactly if every database that may be
opened has a playlist. -/
theorem shows_playlist_iff (opened : Set Database) :
    (∀ moves : List Move, (∀ m ∈ moves, m.OpensFrom opened) →
      ∃ app, run OfApp.move {} moves = some app ∧
        (app.databaseLoaded = true → ∃ database ∈ opened, ∃ view, app.database = some database ∧
          app.draw = some view ∧
          (view.tracks ≠ [] → ∃ id, view.header = some id ∧
            at? database.allPlaylistIds app.playlistCursor.index = some id ∧
            view.playlists[(app.playlistCursor.index - app.playlistCursor.offset).toNat]? =
              some id ∧
            ∃ ids, database.getPlaylist id = some ids ∧
              view.tracks = ((ids.drop app.trackCursor.offset.toNat).take
                visibleRows.toNat).filterMap database.getTrack ∧
              app.trackCursor.OnShow visibleRows ids.length))) ↔
      ∀ database ∈ opened, database.allPlaylistIds ≠ [] := by
  constructor
  · intro hruns database hopened hnone
    have hopens : ∀ m ∈ [Move.load (.ok database), .key .down], m.OpensFrom opened := by
      intro m hm database' hm'
      obtain rfl | rfl : m = _ ∨ m = _ := by simpa using hm
      · obtain rfl : database = database' := Option.some.inj hm'
        exact hopened
      · cases hm'
    obtain ⟨app, happ, hdraws⟩ := hruns _ hopens
    simp only [run_cons, run_nil, OfApp.move, OfApp.loadDatabase, OfApp.keyPressed,
      OfApp.movePlaylist, OfApp.selectPlaylist, hnone, List.isEmpty_nil, if_true, Option.bind_some,
      Bool.not_true, Bool.false_eq_true, if_false, Cursor.down] at happ
    obtain rfl := Option.some.inj happ
    obtain ⟨database', -, view, -, hview, -⟩ := hdraws rfl
    simp [OfApp.draw, readBelow_of_neg] at hview
  · intro hlists moves hmoves
    have hinitial : ({} : OfApp).Sound opened := fun h => absurd h Bool.false_ne_true
    obtain ⟨app, happ, hsound⟩ := exists_run (move_sound hlists) hinitial hmoves
    refine ⟨app, happ, fun hloaded => ?_⟩
    obtain ⟨database, hmem, hbrowses⟩ := hsound hloaded
    obtain ⟨id, hid, htracks, hdraw⟩ := hbrowses.draw
    refine ⟨database, hmem, _, hbrowses.database_eq, hdraw, fun hne => ⟨id, rfl, hid, ?_, ?_⟩⟩
    · have hshow := hbrowses.onShow
      rw [hbrowses.playlistIds_eq] at hshow
      exact hshow.getElem?_window.trans hid
    · cases hids : database.getPlaylist id with
      | none => simp [hids] at hne
      | some ids =>
          have hfits := hbrowses.fits
          rw [htracks, hids, Option.getD_some] at hfits
          refine ⟨ids, rfl, by rw [Option.getD_some], hfits.onShow ?_⟩
          rw [hids, Option.getD_some] at hne
          cases ids with
          | nil => simp at hne
          | cons first ids => simp

end PlaylistBrowser

end DjLink
