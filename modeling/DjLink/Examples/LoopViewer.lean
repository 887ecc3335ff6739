import DjLink.Examples.CrateDigger
import DjLink.Library.PartialRun
import DjLink.Library.Sorting

/-!
The viewer of `example-loop-viewer`: the tracks of an export that have loops,
those with the most loops first, a selected track and a selected loop of it.
Every selection is cut to the list that it is made in, so that nothing that is
drawn is read outside of a list.

A load that goes wrong sets a message and leaves nothing loaded, and a frame
with nothing loaded shows the instructions: the message is never seen.
-/

namespace DjLink

open CrateDigger ListCursor PartialRun Sorting

namespace LoopViewer

def visibleTracks : Int := 15

structure TrackLoopData where
  id : TrackId
  title : String
  artist : String
  duration : UInt32
  loops : List CuePoint
  deriving Inhabited

def getArtistName (database : Database) (id : ArtistId) : String :=
  if id = 0 then "" else (database.getArtist id).getD ""

/-- A track of the list, unless it has no loops. -/
def trackLoopData (database : Database) (id : TrackId) : Option TrackLoopData := do
  let track ← database.getTrack id
  let loops := (database.getCuePointsForTrack id).filter (·.isLoop)
  if loops.isEmpty then none
  else
    return {
      id := id
      title := track.title
      artist := getArtistName database track.artistId
      duration := track.durationSeconds
      loops := loops }

/-- More loops come first. -/
def lt (a b : TrackLoopData) : Bool := a.loops.length > b.loops.length

def buildLoopList (sort : List TrackLoopData → List TrackLoopData) (database : Database) :
    List TrackLoopData :=
  sort (database.allTrackIds.filterMap (trackLoopData database))

structure OfApp where
  database : Option Database := none
  databaseLoaded : Bool := false
  errorMessage : String := ""
  tracksWithLoops : List TrackLoopData := []
  /-- `selectedTrackIndex` and `trackScrollOffset`. -/
  cursor : Cursor := {}
  selectedLoopIndex : Int := 0

inductive Pressed where
  | up
  | down
  | pageUp
  | pageDown
  | left
  | right
  | other

inductive Move where
  | drop (dropped : Dropped)
  | key (pressed : Pressed)

namespace OfApp

variable (sort : List TrackLoopData → List TrackLoopData)

def selectTrack (self : OfApp) (index : Int) : OfApp :=
  if self.tracksWithLoops.isEmpty then self
  else
    { self with
      cursor := self.cursor.select visibleTracks self.tracksWithLoops.length index
      selectedLoopIndex := 0 }

def loadDatabase (self : OfApp) (dropped : Dropped) : OfApp :=
  let self := { self with errorMessage := "", tracksWithLoops := [], databaseLoaded := false }
  match dropped with
  | .notFound path => { self with errorMessage := "Could not find export.pdb in: " ++ path }
  | .failed message => { self with errorMessage := "Failed to open database: " ++ message }
  -- the database is kept, but does not count as loaded
  | .opened database false =>
      { self with
        database := some database
        errorMessage := "ANLZ folder not found. Loops require ANLZ files." }
  | .opened database true =>
      { self with
        database := some database
        databaseLoaded := true
        tracksWithLoops := buildLoopList sort database }.selectTrack 0

def keyPressed (self : OfApp) (pressed : Pressed) : Option OfApp :=
  if !self.databaseLoaded || self.tracksWithLoops.isEmpty then some self
  else
    match pressed with
    | .up => some (self.selectTrack (self.cursor.index - 1))
    | .down => some (self.selectTrack (self.cursor.index + 1))
    | .pageUp => some (self.selectTrack (self.cursor.index - visibleTracks))
    | .pageDown => some (self.selectTrack (self.cursor.index + visibleTracks))
    | .left => do
        let track ← at? self.tracksWithLoops self.cursor.index
        return if track.loops.isEmpty then self
          else { self with selectedLoopIndex := max 0 (self.selectedLoopIndex - 1) }
    | .right => do
        let track ← at? self.tracksWithLoops self.cursor.index
        return if track.loops.isEmpty then self
          else { self with
            selectedLoopIndex := min ((track.loops.length : Int) - 1) (self.selectedLoopIndex + 1) }
    | .other => some self

def move (self : OfApp) : Move → Option OfApp
  | .drop dropped => some (self.loadDatabase sort dropped)
  | .key pressed => self.keyPressed pressed

end OfApp

/-- What a frame shows. -/
inductive Screen where
  | instructions
  | error (message : String)
  | noTracks
  | tracks (rows : List TrackLoopData) (selected : TrackLoopData) (loop : Option CuePoint)

namespace OfApp

/-- The loop below the time line; a track of no length has none. -/
def drawLoop (self : OfApp) (track : TrackLoopData) : Option (Option CuePoint) :=
  if track.duration * 1000 = 0 then some none else readBelow track.loops self.selectedLoopIndex

def draw (self : OfApp) : Option Screen :=
  -- comes before the error, which is set only with nothing loaded
  if !self.databaseLoaded then some .instructions
  else if !self.errorMessage.isEmpty then some (.error self.errorMessage)
  else if self.tracksWithLoops.isEmpty then some .noTracks
  else do
    let rows ← readWindow visibleTracks self.tracksWithLoops self.cursor.offset
    let selected ← at? self.tracksWithLoops self.cursor.index
    let loop ← self.drawLoop selected
    return .tracks rows selected loop

end OfApp

variable {sort : List TrackLoopData → List TrackLoopData} {app : OfApp} {database : Database}

/-- A track of the list: its row and its loops, of which there is one. -/
theorem trackLoopData_eq_some {id : TrackId} {track : TrackLoopData}
    (h : trackLoopData database id = some track) :
    track.id = id ∧ track.loops = (database.getCuePointsForTrack id).filter (·.isLoop) ∧
      track.loops ≠ [] ∧
      ∃ row, database.getTrack id = some row ∧ track.title = row.title ∧
        track.artist = getArtistName database row.artistId ∧
        track.duration = row.durationSeconds := by
  obtain ⟨row, hrow, htrack⟩ := Option.bind_eq_some_iff.mp h
  dsimp only at htrack
  split at htrack
  next => cases htrack
  next hne =>
    obtain rfl := Option.some.inj htrack
    exact ⟨rfl, rfl, by simpa using hne, row, hrow, rfl, rfl, rfl⟩

/-- Listed are the tracks with a row and a loop. -/
theorem map_id_trackLoopData (database : Database) :
    (database.allTrackIds.filterMap (trackLoopData database)).map TrackLoopData.id =
      database.allTrackIds.filter fun id =>
        (database.getTrack id).isSome && (database.getCuePointsForTrack id).any (·.isLoop) := by
  refine map_filterMap_eq_filter (fun id => ?_) database.allTrackIds
  have hany : (database.getCuePointsForTrack id).any (·.isLoop) =
      !((database.getCuePointsForTrack id).filter (·.isLoop)).isEmpty := by
    rw [Bool.eq_iff_iff]
    simp
  rw [hany, trackLoopData]
  cases database.getTrack id with
  | none => rfl
  | some row =>
      simp only [Option.bind_eq_bind, Option.bind_some]
      cases ((database.getCuePointsForTrack id).filter (·.isLoop)).isEmpty <;> rfl

/-! ### The invariant -/

/-- A track is selected and on show if there is one, and a loop of it; there are
no tracks unless they are those of a database, and no message next to them. -/
structure OfApp.Sound (sort : List TrackLoopData → List TrackLoopData) (app : OfApp) : Prop where
  offset_nonneg : 0 ≤ app.cursor.offset
  loaded : app.databaseLoaded = true → app.errorMessage = "" ∧
    ∃ database, app.database = some database ∧ app.tracksWithLoops = buildLoopList sort database
  unloaded : app.databaseLoaded = false → app.tracksWithLoops = []
  onShow : app.tracksWithLoops ≠ [] →
    app.cursor.OnShow visibleTracks app.tracksWithLoops.length
  loop : ∀ track, at? app.tracksWithLoops app.cursor.index = some track →
    0 ≤ app.selectedLoopIndex ∧ app.selectedLoopIndex < track.loops.length

theorem loops_pos (hsort : SortsBy lt sort) {track : TrackLoopData}
    (h : track ∈ buildLoopList sort database) : 0 < track.loops.length := by
  obtain ⟨id, -, hid⟩ := List.mem_filterMap.mp (hsort.mem_iff.mp h)
  exact List.length_pos_iff.mpr (trackLoopData_eq_some hid).2.2.1

/-- Every track of the list has a loop. -/
theorem OfApp.Sound.loops_pos (h : app.Sound sort) (hsort : SortsBy lt sort)
    {track : TrackLoopData} (htrack : track ∈ app.tracksWithLoops) : 0 < track.loops.length := by
  cases hloaded : app.databaseLoaded with
  | false =>
      rw [h.unloaded hloaded] at htrack
      cases htrack
  | true =>
      obtain ⟨-, database, -, htracks⟩ := h.loaded hloaded
      rw [htracks] at htrack
      exact LoopViewer.loops_pos hsort htrack

/-- A selection in a list of tracks that have loops, wherever the selection was
before. -/
theorem selectTrack_sound (app : OfApp) (hoffset : 0 ≤ app.cursor.offset)
    (hloaded : app.databaseLoaded = true → app.errorMessage = "" ∧
      ∃ database, app.database = some database ∧
        app.tracksWithLoops = buildLoopList sort database)
    (hunloaded : app.databaseLoaded = false → app.tracksWithLoops = [])
    (hloops : ∀ track ∈ app.tracksWithLoops, 0 < track.loops.length) {index : Int}
    (hselect : app.tracksWithLoops ≠ [] →
      (app.cursor.select visibleTracks app.tracksWithLoops.length index).OnShow visibleTracks
        app.tracksWithLoops.length) : (app.selectTrack index).Sound sort := by
  rw [OfApp.selectTrack]
  split
  next hempty =>
    have hempty : app.tracksWithLoops = [] := by simpa using hempty
    exact ⟨hoffset, hloaded, hunloaded, fun hne => absurd hempty hne,
      fun track htrack => by simp [hempty, at?] at htrack⟩
  next hne =>
    have hshow := hselect (by simpa using hne)
    exact ⟨hshow.offset_nonneg, hloaded, hunloaded, fun _ => hshow, fun track htrack =>
      ⟨Int.le_refl 0, Int.natCast_pos.mpr (hloops track (mem_of_at? htrack))⟩⟩

theorem OfApp.Sound.selectTrack (h : app.Sound sort) (hsort : SortsBy lt sort) (index : Int) :
    (app.selectTrack index).Sound sort := by
  refine selectTrack_sound app h.offset_nonneg h.loaded h.unloaded
    (fun track => h.loops_pos hsort) fun hne => ?_
  have hlength := List.length_pos_iff.mpr hne
  exact Cursor.onShow_select (by decide) (by omega) index h.offset_nonneg (h.onShow hne).window_le

/-- Whatever is dropped, the selection starts at the top again. -/
theorem OfApp.Sound.loadDatabase (h : app.Sound sort) (hsort : SortsBy lt sort)
    (dropped : Dropped) : (app.loadDatabase sort dropped).Sound sort := by
  have hnone : ∀ {message database},
      { app with
        errorMessage := message, tracksWithLoops := [], databaseLoaded := false,
        database := database }.Sound sort := fun {message database} =>
    ⟨h.offset_nonneg, fun hloaded => absurd hloaded Bool.false_ne_true, fun _ => rfl,
      fun hne => absurd rfl hne, fun track htrack => by simp [at?] at htrack⟩
  cases dropped with
  | notFound path => exact hnone
  | failed message => exact hnone
  | opened database anlz =>
      cases anlz with
      | false => exact hnone
      | true =>
          refine selectTrack_sound
            { app with
              errorMessage := "", databaseLoaded := true, database := some database,
              tracksWithLoops := buildLoopList sort database }
            h.offset_nonneg (fun _ => ⟨rfl, database, rfl, rfl⟩)
            (fun hfalse => absurd hfalse.symm Bool.false_ne_true)
            (fun track => LoopViewer.loops_pos hsort) fun hne => ?_
          have hlength := List.length_pos_iff.mpr hne
          exact Cursor.onShow_select_zero (by decide) (by omega) h.offset_nonneg

theorem OfApp.Sound.withLoop (h : app.Sound sort) {index : Int}
    (hindex : ∀ track, at? app.tracksWithLoops app.cursor.index = some track →
      0 ≤ index ∧ index < track.loops.length) :
    { app with selectedLoopIndex := index }.Sound sort :=
  ⟨h.offset_nonneg, h.loaded, h.unloaded, h.onShow, hindex⟩

theorem OfApp.Sound.selected (h : app.Sound sort) (hne : app.tracksWithLoops ≠ []) :
    ∃ track, at? app.tracksWithLoops app.cursor.index = some track := by
  have hshow := h.onShow hne
  exact Option.isSome_iff_exists.mp
    ((at?_isSome_iff _ _).mpr ⟨hshow.index_nonneg, hshow.index_lt⟩)

theorem OfApp.Sound.keyPressed (h : app.Sound sort) (hsort : SortsBy lt sort) (pressed : Pressed) :
    ∃ app', app.keyPressed pressed = some app' ∧ app'.Sound sort := by
  rw [OfApp.keyPressed.eq_def]
  split
  next => exact ⟨app, rfl, h⟩
  next hguard =>
    have hne : app.tracksWithLoops ≠ [] := by
      simp only [Bool.or_eq_true, not_or, List.isEmpty_iff] at hguard
      exact hguard.2
    obtain ⟨track, htrack⟩ := h.selected hne
    obtain ⟨hnonneg, hlt⟩ := h.loop track htrack
    -- the loop is moved in the list of this track
    have hloop : ∀ {index : Int}, 0 ≤ index ∧ index < track.loops.length →
        { app with selectedLoopIndex := index }.Sound sort := by
      intro index hindex
      refine h.withLoop fun track' htrack' => ?_
      obtain rfl := Option.some.inj (htrack.symm.trans htrack')
      exact hindex
    cases pressed with
    | up => exact ⟨_, rfl, h.selectTrack hsort _⟩
    | down => exact ⟨_, rfl, h.selectTrack hsort _⟩
    | pageUp => exact ⟨_, rfl, h.selectTrack hsort _⟩
    | pageDown => exact ⟨_, rfl, h.selectTrack hsort _⟩
    | other => exact ⟨app, rfl, h⟩
    | left =>
        refine ⟨_, by rw [htrack]; rfl, ?_⟩
        split
        · exact h
        · exact hloop (by omega)
    | right =>
        refine ⟨_, by rw [htrack]; rfl, ?_⟩
        split
        · exact h
        · exact hloop (by omega)

theorem OfApp.Sound.move (hsort : SortsBy lt sort) (app : OfApp) (m : Move) (h : app.Sound sort) :
    ∃ app', app.move sort m = some app' ∧ app'.Sound sort := by
  cases m with
  | drop dropped => exact ⟨_, rfl, h.loadDatabase hsort dropped⟩
  | key pressed => exact h.keyPressed hsort pressed

theorem sound_initial : ({} : OfApp).Sound sort where
  offset_nonneg := Int.le_refl 0
  loaded h := absurd h Bool.false_ne_true
  unloaded _ := rfl
  onShow h := absurd rfl h
  loop track h := by simp [at?] at h

/-- A frame with a track in the list. -/
theorem OfApp.Sound.draw (h : app.Sound sort) (hne : app.tracksWithLoops ≠ []) :
    ∃ track loop shown, at? app.tracksWithLoops app.cursor.index = some track ∧
      at? track.loops app.selectedLoopIndex = some loop ∧
      (shown = none ∨ shown = some loop) ∧
      app.draw = some (.tracks
        ((app.tracksWithLoops.drop app.cursor.offset.toNat).take visibleTracks.toNat) track
        shown) := by
  obtain ⟨track, htrack⟩ := h.selected hne
  obtain ⟨loop, hloop⟩ := Option.isSome_iff_exists.mp
    ((at?_isSome_iff track.loops app.selectedLoopIndex).mpr (h.loop track htrack))
  have hloaded : app.databaseLoaded = true := Bool.of_not_eq_false fun hf => hne (h.unloaded hf)
  obtain ⟨shown, hshown, hcases⟩ : ∃ shown, app.drawLoop track = some shown ∧
      (shown = none ∨ shown = some loop) := by
    rw [OfApp.drawLoop]
    split
    · exact ⟨none, rfl, .inl rfl⟩
    · exact ⟨some loop, readBelow_of_at? hloop, .inr rfl⟩
  refine ⟨track, loop, shown, htrack, hloop, hcases, ?_⟩
  have hwindow := readWindow_eq app.tracksWithLoops (show 0 ≤ visibleTracks by decide)
    h.offset_nonneg
  simp [OfApp.draw, hloaded, (h.loaded hloaded).1, hne, hwindow, htrack, hshown]

/-- A frame without tracks. -/
theorem OfApp.Sound.draw_empty (h : app.Sound sort) (hnone : app.tracksWithLoops = []) :
    ∃ screen, app.draw = some screen ∧ ∀ message, screen ≠ .error message := by
  cases hloaded : app.databaseLoaded with
  | false =>
      exact ⟨.instructions, by simp [OfApp.draw, hloaded], fun message => Screen.noConfusion⟩
  | true =>
      exact ⟨.noTracks, by simp [OfApp.draw, hloaded, (h.loaded hloaded).1, hnone],
        fun message => Screen.noConfusion⟩

/-! ### Whole runs -/

/-- **Browsing loops.** Whatever is dropped and pressed, every frame can be drawn
and none shows a message of an error; what is listed are the tracks of the
database that have a row and a loop, each with its loops, those with more loops
first; and with a track in the list one is selected and on show, and a loop of it
is selected. -/
theorem loops_run (sort : List TrackLoopData → List TrackLoopData) (hsort : SortsBy lt sort)
    (moves : List Move) :
    ∃ app screen, run (OfApp.move sort) {} moves = some app ∧ app.draw = some screen ∧
      (∀ message, screen ≠ .error message) ∧
      (app.databaseLoaded = true → ∃ database, app.database = some database ∧
        (app.tracksWithLoops.map TrackLoopData.id).Perm (database.allTrackIds.filter fun id =>
          (database.getTrack id).isSome && (database.getCuePointsForTrack id).any (·.isLoop)) ∧
        (∀ track ∈ app.tracksWithLoops,
          track.loops = (database.getCuePointsForTrack track.id).filter (·.isLoop) ∧
          ∃ row, database.getTrack track.id = some row ∧ track.title = row.title ∧
            track.artist = getArtistName database row.artistId ∧
            track.duration = row.durationSeconds) ∧
        app.tracksWithLoops.Pairwise fun a b => b.loops.length ≤ a.loops.length) ∧
      (app.tracksWithLoops ≠ [] → ∃ rows track loop shown,
        screen = .tracks rows track shown ∧ (shown = none ∨ shown = some loop) ∧
        at? app.tracksWithLoops app.cursor.index = some track ∧
        rows[(app.cursor.index - app.cursor.offset).toNat]? = some track ∧
        at? track.loops app.selectedLoopIndex = some loop) := by
  obtain ⟨app, happ, hsound⟩ := exists_run_of_total (OfApp.Sound.move hsort) sound_initial moves
  have hlist (hloaded : app.databaseLoaded = true) : ∃ database,
      app.database = some database ∧ app.tracksWithLoops = buildLoopList sort database :=
    (hsound.loaded hloaded).2
  obtain ⟨screen, hscreen, herror, htracks⟩ : ∃ screen, app.draw = some screen ∧
      (∀ message, screen ≠ .error message) ∧
      (app.tracksWithLoops ≠ [] → ∃ rows track loop shown,
        screen = .tracks rows track shown ∧ (shown = none ∨ shown = some loop) ∧
        at? app.tracksWithLoops app.cursor.index = some track ∧
        rows[(app.cursor.index - app.cursor.offset).toNat]? = some track ∧
        at? track.loops app.selectedLoopIndex = some loop) := by
    by_cases hnone : app.tracksWithLoops = []
    · obtain ⟨screen, hscreen, herror⟩ := hsound.draw_empty hnone
      exact ⟨screen, hscreen, herror, fun hne => absurd hnone hne⟩
    · obtain ⟨track, loop, shown, htrack, hloop, hshown, hdraw⟩ := hsound.draw hnone
      exact ⟨_, hdraw, fun message => Screen.noConfusion, fun _ => ⟨_, track, loop, shown, rfl,
        hshown, htrack, (hsound.onShow hnone).getElem?_window.trans htrack, hloop⟩⟩
  refine ⟨app, screen, happ, hscreen, herror, fun hloaded => ?_, htracks⟩
  obtain ⟨database, hdatabase, hlist⟩ := hlist hloaded
  refine ⟨database, hdatabase, ?_, fun track htrack => ?_, ?_⟩
  · rw [hlist, ← map_id_trackLoopData]
    exact (hsort.perm _).map TrackLoopData.id
  · rw [hlist] at htrack
    obtain ⟨id, -, hid⟩ := List.mem_filterMap.mp (hsort.mem_iff.mp htrack)
    obtain ⟨rfl, hloops, -, hrow⟩ := trackLoopData_eq_some hid
    exact ⟨hloops, hrow⟩
  · rw [hlist]
    exact (hsort.pairwise _).imp fun h => by simpa [lt] using h

/-- Of three tracks one has no loops; the one with more of them comes first, and
its second loop is selected. -/
theorem loops_run_of_two_tracks :
    let sort : List TrackLoopData → List TrackLoopData := fun l => l.mergeSort fun a b => !lt b a
    let cue (timeMs : UInt32) (isLoop : Bool) : CuePoint :=
      { (default : CuePoint) with timeMs := timeMs, isLoop := isLoop }
    let database : Database :=
      { allTrackIds := [3, 2, 1]
        getTrack := fun _ => some { (default : TrackRow) with durationSeconds := 60 }
        getCuePointsForTrack := fun id =>
          if id = 3 then [cue 10 true, cue 20 false, cue 30 true]
          else if id = 2 then [cue 40 true] else [cue 50 false] }
    ∃ app rows track shown, run (OfApp.move sort) {} [.drop (.opened database true), .key .right] =
        some app ∧
      (app.tracksWithLoops.map TrackLoopData.id).Perm [3, 2] ∧
      app.draw = some (.tracks rows track shown) ∧ track.id = 3 ∧
      track.loops = (database.getCuePointsForTrack 3).filter (·.isLoop) ∧
      at? track.loops app.selectedLoopIndex = some (cue 30 true) := by
  intro sort cue database
  have hsorts : SortsBy lt sort := by
    refine sortsBy_mergeSort (fun a b => ?_) (fun a b c => ?_) <;>
      simp only [lt, decide_eq_true_eq, decide_eq_false_iff_not] <;> omega
  let data (id : TrackId) (loops : List CuePoint) : TrackLoopData :=
    { id := id, title := "", artist := "", duration := 60, loops := loops }
  let listed := [data 3 [cue 10 true, cue 30 true], data 2 [cue 40 true]]
  have hlisted : buildLoopList sort database = listed :=
    List.mergeSort_of_pairwise (l := listed) (by decide)
  let last : OfApp :=
    { database := some database, databaseLoaded := true, tracksWithLoops := listed,
      selectedLoopIndex := 1 }
  have hlast : run (OfApp.move sort) {} [.drop (.opened database true), .key .right] =
      some last := by
    simp [OfApp.move, OfApp.loadDatabase, hlisted, OfApp.selectTrack, OfApp.keyPressed,
      Cursor.select, listed, data, last, visibleTracks]
  obtain ⟨app, screen, happ, hscreen, -, hloaded, hshown⟩ := loops_run sort hsorts
    [.drop (.opened database true), .key .right]
  obtain rfl := Option.some.inj (hlast.symm.trans happ)
  obtain ⟨_, hdatabase, hids, htracks, -⟩ := hloaded rfl
  obtain rfl := Option.some.inj hdatabase
  obtain ⟨rows, track, _, shown, rfl, -, htrack, -, -⟩ := hshown (List.cons_ne_nil _ _)
  obtain rfl : data 3 [cue 10 true, cue 30 true] = track := Option.some.inj htrack
  exact ⟨last, rows, _, shown, hlast, hids, hscreen, rfl, (htracks _ List.mem_cons_self).1, rfl⟩

end LoopViewer

end DjLink
