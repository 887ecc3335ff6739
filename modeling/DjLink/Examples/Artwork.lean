import Mathlib.Data.String.Basic
import DjLink.Examples.CrateDigger
import DjLink.Library.LastWrite
import DjLink.Library.PartialRun
import DjLink.Library.Sorting

/-!
The viewer of `example-artwork`: the tracks of an export by title, a selected
track and its picture, which `Enter` reads from a file and the list then keeps.
What the file system has is given with the key: whether the first and the second
path can be read, and what is in the image afterwards. An image that is not
allocated is `none`.
-/

namespace DjLink

open CrateDigger LastWrite ListCursor PartialRun Sorting

namespace Artwork

def visibleTracks : Int := 12

variable {Image : Type}

structure TrackWithArtwork (Image : Type) where
  id : TrackId
  title : String
  artist : String
  album : String
  artworkPath : String
  artwork : Option Image := none
  artworkLoaded : Bool := false

/-- What comes of `artwork.load(path)`. -/
structure Attempt (Image : Type) where
  loaded : Bool
  image : Option Image

structure OfApp (Image : Type) where
  database : Option Database := none
  databaseLoaded : Bool := false
  errorMessage : String := ""
  tracks : List (TrackWithArtwork Image) := []
  /-- `selectedIndex` and `scrollOffset`. -/
  cursor : Cursor := {}
  currentArtwork : Option Image := none
  hasCurrentArtwork : Bool := false

inductive Pressed (Image : Type) where
  | up
  | down
  | pageUp
  | pageDown
  | home
  | end
  | enter (first second : Attempt Image)
  | other

inductive Move (Image : Type) where
  | drop (dropped : Dropped)
  | key (pressed : Pressed Image)

def getArtistName (database : Database) (id : ArtistId) : String :=
  if id = 0 then "" else (database.getArtist id).getD ""

def getAlbumName (database : Database) (id : AlbumId) : String :=
  if id = 0 then "" else (database.getAlbum id).getD ""

def trackWithArtwork (database : Database) (id : TrackId) : Option (TrackWithArtwork Image) := do
  let track ← database.getTrack id
  return {
    id := id
    title := track.title
    artist := getArtistName database track.artistId
    album := getAlbumName database track.albumId
    artworkPath :=
      if track.artworkId > 0 then (database.getArtwork track.artworkId).getD "" else "" }

def lt (a b : TrackWithArtwork Image) : Bool := a.title < b.title

namespace OfApp

variable (sort : List (TrackWithArtwork Image) → List (TrackWithArtwork Image))

def buildTrackList (database : Database) : List (TrackWithArtwork Image) :=
  sort (database.allTrackIds.filterMap (trackWithArtwork database))

def selectTrack (self : OfApp Image) (index : Int) : Option (OfApp Image) :=
  if self.tracks.isEmpty then some self
  else do
    let self := { self with cursor := self.cursor.select visibleTracks self.tracks.length index }
    let track ← at? self.tracks self.cursor.index
    return if track.artworkLoaded then
      { self with currentArtwork := track.artwork, hasCurrentArtwork := true }
    else { self with hasCurrentArtwork := false }

/-- Keep what was read with the track. -/
def setArtwork (self : OfApp Image) (attempt : Attempt Image) : OfApp Image :=
  { self with
    tracks := self.tracks.modify self.cursor.index.toNat fun track =>
      { track with
        artwork := attempt.image, artworkLoaded := attempt.loaded || track.artworkLoaded } }

def loadArtworkForTrack (self : OfApp Image) (track : TrackWithArtwork Image)
    (first second : Attempt Image) : OfApp Image :=
  let self := { self with hasCurrentArtwork := false }
  if track.artworkPath.isEmpty then self
  else if first.loaded then
    { self.setArtwork first with currentArtwork := first.image, hasCurrentArtwork := true }
  else if second.loaded then
    { (self.setArtwork first).setArtwork second with
      currentArtwork := second.image, hasCurrentArtwork := true }
  -- a failed `load` may leave anything in the image, and does not touch `artworkLoaded`
  else (self.setArtwork first).setArtwork second

def loadDatabase (self : OfApp Image) (dropped : Dropped) : Option (OfApp Image) :=
  let self := { self with
    errorMessage := "", tracks := [], databaseLoaded := false, hasCurrentArtwork := false }
  match dropped with
  | .notFound path => some { self with errorMessage := "Could not find export.pdb in: " ++ path }
  | .failed message => some { self with errorMessage := "Failed to open database: " ++ message }
  | .opened database _ =>
      { self with
        database := some database
        databaseLoaded := true
        tracks := buildTrackList sort database }.selectTrack 0

def keyPressed (self : OfApp Image) (pressed : Pressed Image) : Option (OfApp Image) :=
  if !self.databaseLoaded || self.tracks.isEmpty then some self
  else
    match pressed with
    | .up => self.selectTrack (self.cursor.index - 1)
    | .down => self.selectTrack (self.cursor.index + 1)
    | .pageUp => self.selectTrack (self.cursor.index - visibleTracks)
    | .pageDown => self.selectTrack (self.cursor.index + visibleTracks)
    | .home => self.selectTrack 0
    | .end => self.selectTrack ((self.tracks.length : Int) - 1)
    | .enter first second =>
        match at? self.tracks self.cursor.index with
        | none => some self
        | some track => some (self.loadArtworkForTrack track first second)
    | .other => some self

def move (self : OfApp Image) : Move Image → Option (OfApp Image)
  | .drop dropped => self.loadDatabase sort dropped
  | .key pressed => self.keyPressed pressed

end OfApp

/-- A track of the list as it was built. -/
def TrackWithArtwork.plain (track : TrackWithArtwork Image) : TrackWithArtwork Image :=
  { track with artwork := none, artworkLoaded := false }

/-! ### The invariant -/

/-- The list is that of the database but for the pictures; with a track in it
one is on show; and the picture next to it is its own. -/
structure OfApp.Sound (sort : List (TrackWithArtwork Image) → List (TrackWithArtwork Image))
    (app : OfApp Image) : Prop where
  offset_nonneg : 0 ≤ app.cursor.offset
  loaded : app.databaseLoaded = true → app.errorMessage = "" ∧ ∃ database,
    app.database = some database ∧
      app.tracks.map TrackWithArtwork.plain = OfApp.buildTrackList sort database
  unloaded : app.databaseLoaded = false → app.tracks = []
  onShow : app.tracks ≠ [] → app.cursor.OnShow visibleTracks app.tracks.length
  current : app.hasCurrentArtwork = true → ∃ track,
    at? app.tracks app.cursor.index = some track ∧ track.artworkLoaded = true ∧
      app.currentArtwork = track.artwork

variable {sort : List (TrackWithArtwork Image) → List (TrackWithArtwork Image)} {app : OfApp Image}

theorem sound_initial : ({} : OfApp Image).Sound sort where
  offset_nonneg := Int.le_refl 0
  loaded h := absurd h Bool.false_ne_true
  unloaded _ := rfl
  onShow h := absurd rfl h
  current h := absurd h Bool.false_ne_true

/-- The picture of the new selection is shown if it was read before. -/
theorem selectTrack_sound (app : OfApp Image) {database : Database}
    (hdatabase : app.database = some database)
    (htracks : app.tracks.map TrackWithArtwork.plain = OfApp.buildTrackList sort database)
    (hloaded : app.databaseLoaded = true) (hmessage : app.errorMessage = "")
    (hne : app.tracks ≠ []) {index : Int}
    (hselect : (app.cursor.select visibleTracks app.tracks.length index).OnShow visibleTracks
      app.tracks.length) :
    ∃ app', app.selectTrack index = some app' ∧ app'.Sound sort := by
  obtain ⟨track, htrack⟩ := Option.isSome_iff_exists.mp
    ((at?_isSome_iff _ _).mpr ⟨hselect.index_nonneg, hselect.index_lt⟩)
  have hunloaded : app.databaseLoaded = false → app.tracks = [] :=
    fun hf => absurd (hf.symm.trans hloaded) Bool.false_ne_true
  have hempty : app.tracks.isEmpty = false := by simpa using hne
  rw [OfApp.selectTrack, hempty]
  simp only [Bool.false_eq_true, if_false, htrack, Option.bind_eq_bind, Option.bind_some]
  refine ⟨_, rfl, ?_⟩
  split
  next hread =>
    exact ⟨hselect.offset_nonneg, fun _ => ⟨hmessage, database, hdatabase, htracks⟩, hunloaded,
      fun _ => hselect, fun _ => ⟨track, htrack, hread, rfl⟩⟩
  next =>
    exact ⟨hselect.offset_nonneg, fun _ => ⟨hmessage, database, hdatabase, htracks⟩, hunloaded,
      fun _ => hselect, fun hf => absurd hf Bool.false_ne_true⟩

theorem OfApp.Sound.loadDatabase (h : app.Sound sort) (hplain : ∀ database, ∀ track ∈
      OfApp.buildTrackList sort database, track.plain = track) (dropped : Dropped) :
    ∃ app', app.loadDatabase sort dropped = some app' ∧ app'.Sound sort := by
  have hnone : ∀ {message},
      { app with
        errorMessage := message, tracks := [], databaseLoaded := false,
        hasCurrentArtwork := false }.Sound sort := fun {message} =>
    ⟨h.offset_nonneg, fun hf => absurd hf Bool.false_ne_true, fun _ => rfl,
      fun hne => absurd rfl hne, fun hf => absurd hf Bool.false_ne_true⟩
  cases dropped with
  | notFound path => exact ⟨_, rfl, hnone⟩
  | failed message => exact ⟨_, rfl, hnone⟩
  | opened database anlz =>
      have hmap : (OfApp.buildTrackList sort database).map TrackWithArtwork.plain =
          OfApp.buildTrackList sort database := by
        conv_rhs => rw [← List.map_id (OfApp.buildTrackList sort database)]
        exact List.map_congr_left (hplain database)
      by_cases hempty : OfApp.buildTrackList sort database = []
      -- an empty list: nothing is selected, and no picture is left on show
      · refine ⟨{ app with
          errorMessage := "", databaseLoaded := true, hasCurrentArtwork := false,
          database := some database, tracks := [] }, ?_, h.offset_nonneg,
          fun _ => ⟨rfl, database, rfl, hempty.symm⟩, fun _ => rfl, fun hne => absurd rfl hne,
          fun hf => absurd hf Bool.false_ne_true⟩
        simp [OfApp.loadDatabase, OfApp.selectTrack, hempty]
      · have hlength := List.length_pos_iff.mpr hempty
        exact selectTrack_sound
          { app with
            errorMessage := "", databaseLoaded := true, hasCurrentArtwork := false,
            database := some database, tracks := OfApp.buildTrackList sort database }
          rfl hmap rfl rfl hempty
          (Cursor.onShow_select_zero (by decide) (by simpa using hlength) h.offset_nonneg)

/-- A picture changes nothing in the list but itself. -/
theorem map_plain_setArtwork (app : OfApp Image) (attempt : Attempt Image) :
    (app.setArtwork attempt).tracks.map TrackWithArtwork.plain =
      app.tracks.map TrackWithArtwork.plain := by
  refine List.ext_getElem? fun n => ?_
  rw [OfApp.setArtwork, List.getElem?_map, List.getElem?_map, List.getElem?_modify]
  cases app.tracks[n]? with
  | none => rfl
  | some track =>
      simp only [Option.map_eq_map, Option.map_some]
      split <;> rfl

theorem OfApp.Sound.setArtwork (h : app.Sound sort) (hhas : app.hasCurrentArtwork = false)
    (attempt : Attempt Image) : (app.setArtwork attempt).Sound sort := by
  have hlength : (app.setArtwork attempt).tracks.length = app.tracks.length :=
    List.length_modify _ _ _
  refine ⟨h.offset_nonneg, fun hloaded => ?_, fun hunloaded => ?_, fun hne => ?_, fun hf => ?_⟩
  · obtain ⟨hmessage, database, hdatabase, htracks⟩ := h.loaded hloaded
    exact ⟨hmessage, database, hdatabase, (map_plain_setArtwork app attempt).trans htracks⟩
  · rw [← List.length_eq_zero_iff, hlength, h.unloaded hunloaded]
    rfl
  · rw [hlength]
    refine h.onShow fun hnone => hne ?_
    rw [← List.length_eq_zero_iff, hlength, hnone]
    rfl
  · exact absurd (hhas.symm.trans hf) Bool.false_ne_true

/-- What was read is the picture of the selected track. -/
theorem sound_of_read (app : OfApp Image) {track : TrackWithArtwork Image}
    (htrack : at? app.tracks app.cursor.index = some track) {attempt : Attempt Image}
    (hread : attempt.loaded = true) (hindex : 0 ≤ app.cursor.index)
    (hset : (app.setArtwork attempt).Sound sort) :
    { app.setArtwork attempt with
      currentArtwork := attempt.image, hasCurrentArtwork := true }.Sound sort := by
  refine ⟨hset.offset_nonneg, hset.loaded, hset.unloaded, hset.onShow, fun _ => ?_⟩
  refine ⟨_, (at?_modify app.tracks hindex _).trans (congrArg (Option.map _) htrack), ?_, rfl⟩
  simp [hread]

theorem OfApp.Sound.loadArtworkForTrack (h : app.Sound sort) {track : TrackWithArtwork Image}
    (htrack : at? app.tracks app.cursor.index = some track) (first second : Attempt Image) :
    (app.loadArtworkForTrack track first second).Sound sort := by
  have hindex := ((at?_isSome_iff app.tracks app.cursor.index).mp (by rw [htrack]; rfl)).1
  have hcleared : { app with hasCurrentArtwork := false }.Sound sort :=
    ⟨h.offset_nonneg, h.loaded, h.unloaded, h.onShow, fun hf => absurd hf Bool.false_ne_true⟩
  have hfirst := hcleared.setArtwork rfl first
  have hsecond := hfirst.setArtwork rfl second
  rw [OfApp.loadArtworkForTrack]
  split
  next => exact hcleared
  next =>
    split
    next hread =>
      exact sound_of_read { app with hasCurrentArtwork := false } htrack hread hindex hfirst
    next =>
      split
      next hread =>
        exact sound_of_read _
          ((at?_modify app.tracks hindex _).trans (congrArg (Option.map _) htrack))
          hread hindex hsecond
      next => exact hsecond

theorem OfApp.Sound.keyPressed (h : app.Sound sort) (pressed : Pressed Image) :
    ∃ app', app.keyPressed pressed = some app' ∧ app'.Sound sort := by
  rw [OfApp.keyPressed.eq_def]
  split
  next => exact ⟨app, rfl, h⟩
  next hguard =>
    obtain ⟨hloaded, hne⟩ : app.databaseLoaded = true ∧ app.tracks ≠ [] := by
      simpa [Bool.or_eq_true, not_or] using hguard
    obtain ⟨hmessage, database, hdatabase, htracks⟩ := h.loaded hloaded
    have hlength := List.length_pos_iff.mpr hne
    have hselect : ∀ index, ∃ app', app.selectTrack index = some app' ∧ app'.Sound sort :=
      fun index => selectTrack_sound app hdatabase htracks hloaded hmessage hne
        (Cursor.onShow_select (by decide) (by omega) index h.offset_nonneg (h.onShow hne).window_le)
    cases pressed with
    | other => exact ⟨app, rfl, h⟩
    | up | down | pageUp | pageDown | home | «end» => exact hselect _
    | enter first second =>
        dsimp only
        split
        next => exact ⟨app, rfl, h⟩
        next track htrack => exact ⟨_, rfl, h.loadArtworkForTrack htrack first second⟩

/-- A track of the list as it is built: its row, and no picture yet. -/
theorem trackWithArtwork_eq_some {database : Database} {id : TrackId}
    {track : TrackWithArtwork Image} (h : trackWithArtwork database id = some track) :
    track.id = id ∧ track.artwork = none ∧ track.artworkLoaded = false ∧
      ∃ row, database.getTrack id = some row ∧ track.title = row.title ∧
        track.artist = getArtistName database row.artistId ∧
        track.album = getAlbumName database row.albumId ∧
        track.artworkPath =
          if row.artworkId > 0 then (database.getArtwork row.artworkId).getD "" else "" := by
  obtain ⟨row, hrow, htrack⟩ := Option.bind_eq_some_iff.mp h
  obtain rfl := Option.some.inj htrack
  exact ⟨rfl, rfl, rfl, row, hrow, rfl, rfl, rfl, rfl⟩

theorem map_id_trackWithArtwork (database : Database) :
    (database.allTrackIds.filterMap fun id =>
        (trackWithArtwork database id : Option (TrackWithArtwork Image))).map TrackWithArtwork.id =
      database.allTrackIds.filter fun id => (database.getTrack id).isSome := by
  refine map_filterMap_eq_filter (fun id => ?_) database.allTrackIds
  rw [trackWithArtwork]
  cases database.getTrack id with
  | none => rfl
  | some row => rfl

theorem of_mem_buildTrackList (hsort : SortsBy lt sort) {database : Database}
    {track : TrackWithArtwork Image} (h : track ∈ OfApp.buildTrackList sort database) :
    trackWithArtwork database track.id = some track := by
  obtain ⟨id, -, hid⟩ := List.mem_filterMap.mp (hsort.mem_iff.mp h)
  obtain ⟨rfl, -⟩ := trackWithArtwork_eq_some hid
  exact hid

theorem plain_of_mem (hsort : SortsBy lt sort) (database : Database)
    {track : TrackWithArtwork Image}
    (h : track ∈ OfApp.buildTrackList sort database) : track.plain = track := by
  obtain ⟨-, hartwork, hloaded, -⟩ := trackWithArtwork_eq_some (of_mem_buildTrackList hsort h)
  rw [TrackWithArtwork.plain, ← hartwork, ← hloaded]

theorem OfApp.Sound.move (hsort : SortsBy lt sort) (app : OfApp Image) (m : Move Image)
    (h : app.Sound sort) : ∃ app', app.move sort m = some app' ∧ app'.Sound sort := by
  cases m with
  | drop dropped => exact h.loadDatabase (fun database _ => plain_of_mem hsort database) dropped
  | key pressed => exact h.keyPressed pressed

/-! ### The pictures and the reads -/

/-- What a move does to the picture of the track at `i`: a drop takes it away, and
`Enter` leaves there what came of the last file that it tried to read. -/
def pictureOp (i : Int) (entry : OfApp Image × Move Image) : Option (Option Image) :=
  match entry.2 with
  | .drop _ => some none
  | .key (.enter first second) =>
      if entry.1.cursor.index = i then some (if first.loaded then first.image else second.image)
      else none
  | .key _ => none

/-- Whether a file was read for the track at `i`, since the last drop. -/
def readOp (i : Int) (entry : OfApp Image × Move Image) : Option Bool :=
  match entry.2 with
  | .drop _ => some false
  | .key (.enter first second) =>
      if entry.1.cursor.index = i ∧ (first.loaded || second.loaded) = true then some true else none
  | .key _ => none

/-- What the list keeps of a track with a path goes back to the history. -/
structure OfApp.Remembers (app : OfApp Image) (h : List (OfApp Image × Move Image)) : Prop where
  picture : ∀ i track, at? app.tracks i = some track → track.artworkPath ≠ "" →
    track.artwork = (lastWrite (pictureOp i) h).getD none
  read : ∀ i track, at? app.tracks i = some track → track.artworkPath ≠ "" →
    track.artworkLoaded = (lastWrite (readOp i) h).getD false
  pathless : ∀ track ∈ app.tracks, track.artworkPath = "" → track.artworkLoaded = false

theorem selectTrack_tracks {app app' : OfApp Image} {index : Int}
    (h : app.selectTrack index = some app') : app'.tracks = app.tracks := by
  rw [OfApp.selectTrack] at h
  split at h
  · rw [Option.some.inj h]
  · obtain ⟨track, -, htrack⟩ := Option.bind_eq_some_iff.mp h
    obtain rfl := Option.some.inj htrack
    split <;> rfl

/-- Only `Enter` on a track changes the list. -/
theorem keyPressed_cases {app app' : OfApp Image} {pressed : Pressed Image}
    (hunloaded : app.databaseLoaded = false → app.tracks = [])
    (h : app.keyPressed pressed = some app') :
    (∃ first second track, pressed = .enter first second ∧
        at? app.tracks app.cursor.index = some track ∧
        app' = app.loadArtworkForTrack track first second) ∨
      app'.tracks = app.tracks ∧ ((∃ first second, pressed = .enter first second) →
        at? app.tracks app.cursor.index = none) := by
  rw [OfApp.keyPressed.eq_def] at h
  split at h
  next hguard =>
    have hempty : app.tracks = [] := by
      cases hloaded : app.databaseLoaded with
      | false => exact hunloaded hloaded
      | true => simpa [hloaded] using hguard
    obtain rfl := Option.some.inj h
    exact .inr ⟨rfl, fun _ => by simp [hempty, at?]⟩
  next =>
    cases pressed with
    | other =>
        obtain rfl := Option.some.inj h
        refine .inr ⟨rfl, ?_⟩
        rintro ⟨first, second, henter⟩
        cases henter
    | up | down | pageUp | pageDown | home | «end» =>
        refine .inr ⟨selectTrack_tracks h, ?_⟩
        rintro ⟨first, second, henter⟩
        cases henter
    | enter first second =>
        dsimp only at h
        split at h
        next hnone =>
          obtain rfl := Option.some.inj h
          exact .inr ⟨rfl, fun _ => hnone⟩
        next track htrack =>
          exact .inl ⟨first, second, track, rfl, htrack, (Option.some.inj h).symm⟩

/-- `Enter` on a track with a path changes its picture, and no other entry. -/
theorem at?_loadArtworkForTrack {track : TrackWithArtwork Image}
    (htrack : at? app.tracks app.cursor.index = some track) (first second : Attempt Image)
    (i : Int) :
    at? (app.loadArtworkForTrack track first second).tracks i =
      if app.cursor.index = i ∧ track.artworkPath ≠ "" then
        some { track with
          artwork := if first.loaded then first.image else second.image
          artworkLoaded := (first.loaded || second.loaded) || track.artworkLoaded }
      else at? app.tracks i := by
  have hindex := ((at?_isSome_iff app.tracks app.cursor.index).mp (by rw [htrack]; rfl)).1
  rw [OfApp.loadArtworkForTrack]
  by_cases hpath : track.artworkPath = ""
  · simp [hpath]
  · have hempty : track.artworkPath.isEmpty = false := by simpa using hpath
    by_cases hi : app.cursor.index = i
    · subst hi
      cases hfirst : first.loaded <;> cases hsecond : second.loaded <;>
        simp [hempty, hpath, OfApp.setArtwork, at?_modify _ hindex, htrack, hfirst, hsecond]
    · have hne := Ne.symm hi
      cases hfirst : first.loaded <;> cases hsecond : second.loaded <;>
        simp [hempty, hi, OfApp.setArtwork, at?_modify_ne _ hindex hne, hfirst, hsecond]

/-- A move that neither drops nor reads for the track at `i` writes nothing. -/
theorem ops_of_not_read {entry : OfApp Image × Move Image} {i : Int}
    (hdrop : ∀ dropped, entry.2 ≠ .drop dropped)
    (henter : ∀ first second, entry.2 = .key (.enter first second) → entry.1.cursor.index ≠ i) :
    pictureOp i entry = none ∧ readOp i entry = none := by
  obtain ⟨app, m⟩ := entry
  cases m with
  | drop dropped => exact absurd rfl (hdrop dropped)
  | key pressed =>
      cases pressed with
      | enter first second =>
          have hne : app.cursor.index ≠ i := henter first second rfl
          simp [pictureOp, readOp, hne]
      | _ => exact ⟨rfl, rfl⟩

theorem OfApp.Remembers.of_tracks_eq {h : List (OfApp Image × Move Image)} (hr : app.Remembers h)
    {app' : OfApp Image} (htracks : app'.tracks = app.tracks) {pressed : Pressed Image}
    (hnone : (∃ first second, pressed = .enter first second) →
      at? app.tracks app.cursor.index = none) : app'.Remembers (h ++ [(app, .key pressed)]) := by
  have hops (i : Int) (track : TrackWithArtwork Image) (htrack : at? app.tracks i = some track) :
      pictureOp i (app, .key pressed) = none ∧ readOp i (app, .key pressed) = none := by
    refine ops_of_not_read (fun dropped hdrop => by cases hdrop) fun first second henter hi => ?_
    obtain rfl : pressed = .enter first second := by simpa using henter
    obtain rfl : app.cursor.index = i := hi
    rw [hnone ⟨first, second, rfl⟩] at htrack
    cases htrack
  refine ⟨fun i track htrack hpath => ?_, fun i track htrack hpath => ?_, ?_⟩
  · rw [htracks] at htrack
    rw [lastWrite_concat, (hops i track htrack).1, Option.none_or]
    exact hr.picture i track htrack hpath
  · rw [htracks] at htrack
    rw [lastWrite_concat, (hops i track htrack).2, Option.none_or]
    exact hr.read i track htrack hpath
  · rw [htracks]
    exact hr.pathless

/-- `Enter` on the selected track. -/
theorem OfApp.Remembers.loadArtworkForTrack {h : List (OfApp Image × Move Image)}
    (hr : app.Remembers h) {track : TrackWithArtwork Image}
    (htrack : at? app.tracks app.cursor.index = some track) (first second : Attempt Image) :
    (app.loadArtworkForTrack track first second).Remembers
      (h ++ [(app, .key (.enter first second))]) := by
  have hentry := at?_loadArtworkForTrack htrack first second
  -- a track with a path is the one that is read, or as it was
  have hcases (i : Int) (other : TrackWithArtwork Image)
      (hother : at? (app.loadArtworkForTrack track first second).tracks i = some other)
      (hpath : other.artworkPath ≠ "") :
      app.cursor.index = i ∧ track.artworkPath ≠ "" ∧
          other.artwork = (if first.loaded then first.image else second.image) ∧
          other.artworkLoaded = ((first.loaded || second.loaded) || track.artworkLoaded) ∨
        app.cursor.index ≠ i ∧ at? app.tracks i = some other := by
    rw [hentry i] at hother
    split at hother
    next hread =>
      obtain rfl := Option.some.inj hother
      exact .inl ⟨hread.1, hread.2, rfl, rfl⟩
    next hkept =>
      refine .inr ⟨fun hi => ?_, hother⟩
      obtain rfl := hi
      obtain rfl := Option.some.inj (htrack.symm.trans hother)
      exact hkept ⟨rfl, hpath⟩
  refine ⟨fun i other hother hpath => ?_, fun i other hother hpath => ?_, fun other hmem hpath => ?_⟩
  · rw [lastWrite_concat]
    rcases hcases i other hother hpath with ⟨hi, -, himage, -⟩ | ⟨hi, hkept⟩
    · simp [himage, pictureOp, hi]
    · simpa [pictureOp, hi] using hr.picture i other hkept hpath
  · rw [lastWrite_concat]
    rcases hcases i other hother hpath with ⟨rfl, htrackPath, -, hloaded⟩ | ⟨hi, hkept⟩
    · rw [hloaded]
      cases hread : first.loaded || second.loaded with
      | true => simp [readOp, hread]
      | false => simpa [readOp, hread] using hr.read app.cursor.index track htrack htrackPath
    · simpa [readOp, hi] using hr.read i other hkept hpath
  · obtain ⟨n, hn⟩ := List.mem_iff_getElem?.mp hmem
    rw [← at?_natCast, hentry n] at hn
    split at hn
    next hread =>
      obtain rfl := Option.some.inj hn
      exact absurd hpath hread.2
    next => exact hr.pathless other (mem_of_at? hn) hpath

theorem OfApp.Remembers.loadDatabase {h : List (OfApp Image × Move Image)} (hsort : SortsBy lt sort)
    {dropped : Dropped} {app' : OfApp Image} (happ' : app.loadDatabase sort dropped = some app') :
    app'.Remembers (h ++ [(app, .drop dropped)]) := by
  have hplain : ∀ track ∈ app'.tracks, track.artwork = none ∧ track.artworkLoaded = false := by
    intro track htrack
    cases dropped with
    | notFound path | failed message =>
        obtain rfl := Option.some.inj happ'
        cases htrack
    | opened database anlz =>
        rw [selectTrack_tracks happ'] at htrack
        obtain ⟨-, hartwork, hloaded, -⟩ :=
          trackWithArtwork_eq_some (of_mem_buildTrackList hsort htrack)
        exact ⟨hartwork, hloaded⟩
  refine ⟨fun i track htrack _ => ?_, fun i track htrack _ => ?_, fun track htrack _ => ?_⟩
  · rw [lastWrite_concat]
    exact (hplain track (mem_of_at? htrack)).1
  · rw [lastWrite_concat]
    exact (hplain track (mem_of_at? htrack)).2
  · exact (hplain track htrack).2

theorem OfApp.Remembers.move {h : List (OfApp Image × Move Image)} (hr : app.Remembers h)
    (hsort : SortsBy lt sort) (hsound : app.Sound sort) {m : Move Image} {app' : OfApp Image}
    (happ' : app.move sort m = some app') : app'.Remembers (h ++ [(app, m)]) := by
  cases m with
  | drop dropped => exact Remembers.loadDatabase hsort happ'
  | key pressed =>
      rcases keyPressed_cases hsound.unloaded happ' with
        ⟨first, second, track, rfl, htrack, rfl⟩ | ⟨htracks, hnone⟩
      · exact hr.loadArtworkForTrack htrack first second
      · exact hr.of_tracks_eq htracks hnone

/-- The picture on show is what the last `Enter` on the selected track left. -/
theorem OfApp.Remembers.current {h : List (OfApp Image × Move Image)} (hr : app.Remembers h)
    (hsound : app.Sound sort) (hhas : app.hasCurrentArtwork = true) :
    lastWrite (pictureOp app.cursor.index) h = some app.currentArtwork ∧
      lastWrite (readOp app.cursor.index) h = some true := by
  obtain ⟨track, htrack, hloaded, hcurrent⟩ := hsound.current hhas
  have hpath : track.artworkPath ≠ "" := fun hnone =>
    absurd (hloaded.symm.trans (hr.pathless track (mem_of_at? htrack) hnone)) (by decide)
  have hread := hr.read app.cursor.index track htrack hpath
  have hpicture := hr.picture app.cursor.index track htrack hpath
  rw [hloaded] at hread
  have hsome : lastWrite (readOp app.cursor.index) h = some true := by
    cases hlast : lastWrite (readOp app.cursor.index) h with
    | none => simp [hlast] at hread
    | some read =>
        rw [hlast, Option.getD_some] at hread
        rw [hread]
  refine ⟨?_, hsome⟩
  cases hlast : lastWrite (pictureOp app.cursor.index) h with
  | some image =>
      rw [hlast, Option.getD_some] at hpicture
      rw [hcurrent, hpicture]
  | none =>
      -- whoever reads leaves a picture
      obtain ⟨before, entry, after, rfl, hwrites, -⟩ := lastWrite_eq_some_iff.mp hsome
      have hentry := lastWrite_eq_none_iff.mp hlast entry (by simp)
      obtain ⟨app₀, m⟩ := entry
      cases m with
      | drop dropped => cases hwrites
      | key pressed =>
          cases pressed with
          | enter first second =>
              by_cases hi : app₀.cursor.index = app.cursor.index <;>
                simp [pictureOp, readOp, hi] at hentry hwrites
          | _ => cases hwrites

/-! ### Whole runs -/

/-- **Browsing artwork.** Whatever is dropped and pressed, and whatever the files
are, an export that is loaded shows no error and is listed with all of its
tracks that have a row, by title; with a track in the list one is on show; and a
picture on show is what the last `Enter` on the selected track since the drop
left there, after a file was read for it. -/
theorem artwork_run (sort : List (TrackWithArtwork Image) → List (TrackWithArtwork Image))
    (hsort : SortsBy lt sort) (moves : List (Move Image)) :
    ∃ app, run (OfApp.move sort) {} moves = some app ∧
      (app.databaseLoaded = true → app.errorMessage = "" ∧ ∃ database,
        app.database = some database ∧
        (app.tracks.map TrackWithArtwork.id).Perm
          (database.allTrackIds.filter fun id => (database.getTrack id).isSome) ∧
        (∀ track ∈ app.tracks, ∃ row, database.getTrack track.id = some row ∧
          track.title = row.title ∧ track.artist = getArtistName database row.artistId ∧
          track.album = getAlbumName database row.albumId ∧
          track.artworkPath =
            if row.artworkId > 0 then (database.getArtwork row.artworkId).getD "" else "") ∧
        app.tracks.Pairwise fun a b => ¬ b.title < a.title) ∧
      (app.tracks ≠ [] → app.cursor.OnShow visibleTracks app.tracks.length) ∧
      (app.hasCurrentArtwork = true →
        let history := trace (OfApp.move sort) {} moves
        lastWrite (pictureOp app.cursor.index) history = some app.currentArtwork ∧
          lastWrite (readOp app.cursor.index) history = some true) := by
  have hinitial : ({} : OfApp Image).Sound sort ∧ ({} : OfApp Image).Remembers [] := by
    refine ⟨sound_initial, fun i track htrack => ?_, fun i track htrack => ?_, ?_⟩
    · simp [at?] at htrack
    · simp [at?] at htrack
    · exact fun track htrack => absurd htrack List.not_mem_nil
  have hmove (h : List (OfApp Image × Move Image)) (app : OfApp Image) (m : Move Image)
      (hI : app.Sound sort ∧ app.Remembers h) : ∃ app', app.move sort m = some app' ∧
        app'.Sound sort ∧ app'.Remembers (h ++ [(app, m)]) := by
    obtain ⟨app', happ', hsound'⟩ := OfApp.Sound.move hsort app m hI.1
    exact ⟨app', happ', hsound', hI.2.move hsort hI.1 happ'⟩
  obtain ⟨app, happ, hsound, hr⟩ := exists_run_trace hmove hinitial moves
  refine ⟨app, happ, fun hloaded => ?_, hsound.onShow, fun hhas => hr.current hsound hhas⟩
  obtain ⟨hmessage, database, hdatabase, htracks⟩ := hsound.loaded hloaded
  have hids : app.tracks.map TrackWithArtwork.id =
      (OfApp.buildTrackList sort database).map TrackWithArtwork.id := by
    rw [← htracks, List.map_map]
    rfl
  refine ⟨hmessage, database, hdatabase, ?_, fun track htrack => ?_, ?_⟩
  · rw [hids, ← map_id_trackWithArtwork]
    exact (hsort.perm _).map TrackWithArtwork.id
  · have hplain : track.plain ∈ OfApp.buildTrackList sort database :=
      htracks ▸ List.mem_map_of_mem htrack
    obtain ⟨-, -, -, hrow⟩ := trackWithArtwork_eq_some (of_mem_buildTrackList hsort hplain)
    exact hrow
  · have hpairwise := hsort.pairwise (database.allTrackIds.filterMap (trackWithArtwork database))
    change (OfApp.buildTrackList sort database).Pairwise _ at hpairwise
    rw [← htracks, List.pairwise_map] at hpairwise
    exact hpairwise.imp fun h => by simpa [lt, TrackWithArtwork.plain] using h

/-- Of two tracks the first has its picture read, and read anew in vain. The
failed attempt left another picture, which comes back on show with the track. -/
theorem artwork_run_of_two_tracks :
    let sort : List (TrackWithArtwork ℕ) → List (TrackWithArtwork ℕ) :=
      fun l => l.mergeSort fun a b => !lt b a
    let row (title : String) : TrackRow :=
      { (default : TrackRow) with title := title, artworkId := 1 }
    let database : Database :=
      { allTrackIds := [1, 2, 3]
        getTrack := fun id => if id = 1 then some (row "A") else if id = 2 then some (row "B")
          else none
        getArtwork := fun _ => some "/a.jpg" }
    let read (image : ℕ) : Move ℕ := .key (.enter ⟨true, some image⟩ ⟨false, none⟩)
    let failed : Move ℕ := .key (.enter ⟨false, none⟩ ⟨false, some 9⟩)
    let moves := [.drop (.opened database false), read 7, failed, .key .down, read 8, .key .up]
    ∃ app, run (OfApp.move sort) {} moves = some app ∧
      (app.tracks.map TrackWithArtwork.id).Perm [1, 2] ∧
      app.cursor.OnShow visibleTracks app.tracks.length ∧
      app.hasCurrentArtwork = true ∧ app.currentArtwork = some 9 ∧
      lastWrite (pictureOp 0) (trace (OfApp.move sort) {} moves) = some app.currentArtwork ∧
      lastWrite (readOp 0) (trace (OfApp.move sort) {} moves) = some true := by
  intro sort row database read failed moves
  have hsorts : SortsBy lt sort := by
    refine sortsBy_mergeSort (fun a b h => ?_) (fun a b c hab hbc => ?_)
    · simp only [lt, decide_eq_true_eq, decide_eq_false_iff_not] at h ⊢
      exact lt_asymm h
    · simp only [lt, decide_eq_false_iff_not, not_lt] at hab hbc ⊢
      exact hab.trans hbc
  let data (id : TrackId) (title : String) : TrackWithArtwork ℕ :=
    { id := id, title := title, artist := "", album := "", artworkPath := "/a.jpg" }
  have hlisted : OfApp.buildTrackList sort database = [data 1 "A", data 2 "B"] :=
    List.mergeSort_of_pairwise (l := [data 1 "A", data 2 "B"]) (by decide)
  let last : OfApp ℕ :=
    { database := some database
      databaseLoaded := true
      tracks := [{ data 1 "A" with artwork := some 9, artworkLoaded := true },
        { data 2 "B" with artwork := some 8, artworkLoaded := true }]
      currentArtwork := some 9
      hasCurrentArtwork := true }
  have hlast : run (OfApp.move sort) {} moves = some last := by
    simp [moves, read, failed, OfApp.move, OfApp.loadDatabase, hlisted, OfApp.selectTrack,
      OfApp.keyPressed, Cursor.select, data, last, visibleTracks, OfApp.loadArtworkForTrack,
      OfApp.setArtwork, at?]
  obtain ⟨app, happ, hloaded, hshow, hcurrent⟩ := artwork_run sort hsorts moves
  obtain rfl := Option.some.inj (hlast.symm.trans happ)
  obtain ⟨-, _, hdatabase, hids, -, -⟩ := hloaded rfl
  obtain rfl := Option.some.inj hdatabase
  exact ⟨last, hlast, hids, hshow (List.cons_ne_nil _ _), rfl, rfl, hcurrent rfl⟩

end Artwork

end DjLink
