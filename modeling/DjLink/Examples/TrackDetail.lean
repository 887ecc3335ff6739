import Mathlib.Data.Set.Basic
import DjLink.Examples.CrateDigger
import DjLink.Library.PartialRun

/-!
The viewer of `example-track-detail`: the tracks of an export and what the
database knows of the selected one. The details are looked up when a track is
selected, and kept until the next one: an export without tracks shows those of
the export before it. A track that the database does not find clears the row and
leaves the cue points of the last one on show.
-/

namespace DjLink

open CrateDigger ListCursor PartialRun

namespace TrackDetail

def visibleTracks : Int := 20

structure OfApp where
  database : Option Database := none
  databaseLoaded : Bool := false
  errorMessage : String := ""
  trackIds : List TrackId := []
  /-- `selectedIndex` and `listScrollOffset`. -/
  cursor : Cursor := {}
  currentTrack : Option TrackRow := none
  artistName : String := ""
  albumName : String := ""
  genreName : String := ""
  labelName : String := ""
  keyName : String := ""
  colorName : String := ""
  cuePoints : List CuePoint := []

inductive Pressed where
  | up
  | down
  | pageUp
  | pageDown
  | home
  | end
  | other

inductive Move where
  | drop (dropped : Dropped)
  | key (pressed : Pressed)

namespace OfApp

/-- Without a row the names and the cue points stay. -/
def loadTrackDetails (self : OfApp) (id : TrackId) : Option OfApp := do
  let database ← self.database
  match database.getTrack id with
  -- what was found for the last track is not cleared
  | none => return { self with currentTrack := none }
  | some track =>
      return { self with
        currentTrack := some track
        artistName := (database.getArtist track.artistId).getD ""
        albumName := (database.getAlbum track.albumId).getD ""
        genreName := (database.getGenre track.genreId).getD ""
        labelName := (database.getLabel track.labelId).getD ""
        keyName := (database.getKey track.keyId).getD ""
        colorName := (database.getColor track.colorId).getD ""
        cuePoints := database.getCuePointsForTrack id }

def selectTrack (self : OfApp) (index : Int) : Option OfApp :=
  if self.trackIds.isEmpty then some self
  else do
    let self := { self with
      cursor := self.cursor.select visibleTracks self.trackIds.length index }
    let id ← at? self.trackIds self.cursor.index
    self.loadTrackDetails id

def loadDatabase (self : OfApp) (dropped : Dropped) : Option OfApp :=
  let self := { self with errorMessage := "", trackIds := [], databaseLoaded := false }
  match dropped with
  | .notFound path => some { self with errorMessage := "Could not find export.pdb in: " ++ path }
  | .failed message => some { self with errorMessage := "Failed to open database: " ++ message }
  | .opened database _ =>
      { self with
        database := some database
        databaseLoaded := true
        trackIds := database.allTrackIds }.selectTrack 0

def keyPressed (self : OfApp) (pressed : Pressed) : Option OfApp :=
  if !self.databaseLoaded || self.trackIds.isEmpty then some self
  else
    match pressed with
    | .up => self.selectTrack (self.cursor.index - 1)
    | .down => self.selectTrack (self.cursor.index + 1)
    | .pageUp => self.selectTrack (self.cursor.index - visibleTracks)
    | .pageDown => self.selectTrack (self.cursor.index + visibleTracks)
    | .home => self.selectTrack 0
    | .end => self.selectTrack ((self.trackIds.length : Int) - 1)
    | .other => some self

def move (self : OfApp) : Move → Option OfApp
  | .drop dropped => self.loadDatabase dropped
  | .key pressed => self.keyPressed pressed

end OfApp

/-- The database that a move opens. -/
def Move.opens : Move → Option Database
  | .drop (.opened database _) => some database
  | .drop (.notFound _) => none
  | .drop (.failed _) => none
  | .key _ => none

/-- What a move opens is one of the databases that may be opened. -/
def Move.OpensFrom (opened : Set Database) (m : Move) : Prop :=
  ∀ database, m.opens = some database → database ∈ opened

/-- The details are those of a track. -/
structure OfApp.Details (app : OfApp) (database : Database) (id : TrackId) : Prop where
  currentTrack : app.currentTrack = database.getTrack id
  names : ∀ track, app.currentTrack = some track →
    app.artistName = (database.getArtist track.artistId).getD "" ∧
    app.albumName = (database.getAlbum track.albumId).getD "" ∧
    app.genreName = (database.getGenre track.genreId).getD "" ∧
    app.labelName = (database.getLabel track.labelId).getD "" ∧
    app.keyName = (database.getKey track.keyId).getD "" ∧
    app.colorName = (database.getColor track.colorId).getD "" ∧
    app.cuePoints = database.getCuePointsForTrack id

/-- What a key makes of the selected place in a list. -/
def Pressed.goal (size : ℕ) (i : Int) : Pressed → Int
  | .up => i - 1
  | .down => i + 1
  | .pageUp => i - visibleTracks
  | .pageDown => i + visibleTracks
  | .home => 0
  | .end => (size : Int) - 1
  | .other => i

/-- Nothing of a track stays on show next to another one: no export without
tracks follows one in which a track can be found, and where a track cannot be
found, at the top of an export or where a key leads to, there are no cue points
to stay. -/
structure NothingStays (opened : Set Database) : Prop where
  empty : ∀ database ∈ opened, database.allTrackIds = [] → ∀ other ∈ opened,
    ∀ id ∈ other.allTrackIds, other.getTrack id = none
  first : ∀ database ∈ opened, ∀ id, at? database.allTrackIds 0 = some id →
    database.getTrack id = none → ∀ other ∈ opened, ∀ id ∈ other.allTrackIds,
      other.getTrack id ≠ none → other.getCuePointsForTrack id = []
  key : ∀ database ∈ opened, ∀ (i : Int) (id id' : TrackId) (pressed : Pressed),
    at? database.allTrackIds i = some id → database.getTrack id ≠ none →
    database.getCuePointsForTrack id ≠ [] →
    at? database.allTrackIds (max 0 (min (pressed.goal database.allTrackIds.length i)
      ((database.allTrackIds.length : Int) - 1))) = some id' → database.getTrack id' ≠ none

/-! ### The invariant -/

/-- What is listed is the last database that was opened; with a track in the
list one is on show with its details; and what is shown is from some database. If
nothing stays, no cue points are shown without a track. -/
structure OfApp.Sound (app : OfApp) (opened : Set Database) : Prop where
  offset_nonneg : 0 ≤ app.cursor.offset
  loaded : app.databaseLoaded = true → app.errorMessage = "" ∧
    ∃ database ∈ opened, app.database = some database ∧ app.trackIds = database.allTrackIds
  unloaded : app.databaseLoaded = false → app.trackIds = []
  onShow : app.trackIds ≠ [] → app.cursor.OnShow visibleTracks app.trackIds.length
  details : app.trackIds ≠ [] → ∃ database id, app.database = some database ∧
    at? app.trackIds app.cursor.index = some id ∧ app.Details database id
  found : ∀ track, app.currentTrack = some track →
    ∃ database ∈ opened, ∃ id ∈ database.allTrackIds, database.getTrack id = some track
  cues : app.cuePoints ≠ [] → ∃ database ∈ opened, ∃ id ∈ database.allTrackIds,
    database.getTrack id ≠ none ∧ database.getCuePointsForTrack id ≠ []
  settled : NothingStays opened → app.databaseLoaded = true → app.currentTrack = none →
    app.cuePoints = []

variable {app : OfApp} {opened : Set Database} {database : Database}

theorem loadTrackDetails_details (app : OfApp) (hdatabase : app.database = some database)
    (id : TrackId) : ∃ app', app.loadTrackDetails id = some app' ∧ app'.Details database id ∧
      app'.database = app.database ∧ app'.databaseLoaded = app.databaseLoaded ∧
      app'.errorMessage = app.errorMessage ∧ app'.trackIds = app.trackIds ∧
      app'.cursor = app.cursor ∧
      (database.getTrack id = none → app'.cuePoints = app.cuePoints) := by
  rw [OfApp.loadTrackDetails, hdatabase, Option.bind_eq_bind, Option.bind_some]
  cases htrack : database.getTrack id with
  | none =>
      exact ⟨_, rfl, ⟨htrack.symm, fun track hcurrent => by cases hcurrent⟩, rfl, rfl, rfl, rfl, rfl,
        fun _ => rfl⟩
  | some track =>
      refine ⟨_, rfl, ⟨htrack.symm, fun track' hcurrent => ?_⟩, rfl, rfl, rfl, rfl, rfl,
        fun hnone => by cases hnone⟩
      obtain rfl := Option.some.inj hcurrent
      exact ⟨rfl, rfl, rfl, rfl, rfl, rfl, rfl⟩

/-- A selection in a list of a database, wherever the selection was before. The
cue points that may stay are from some database. -/
theorem selectTrack_sound (app : OfApp) (hmem : database ∈ opened)
    (hdatabase : app.database = some database) (hids : app.trackIds = database.allTrackIds)
    (hloaded : app.databaseLoaded = true) (hmessage : app.errorMessage = "")
    (hne : app.trackIds ≠ []) {index : Int}
    (hselect : (app.cursor.select visibleTracks app.trackIds.length index).OnShow visibleTracks
      app.trackIds.length)
    (hcues : app.cuePoints ≠ [] → ∃ database ∈ opened, ∃ id ∈ database.allTrackIds,
      database.getTrack id ≠ none ∧ database.getCuePointsForTrack id ≠ [])
    (hsettles : NothingStays opened → ∀ id,
      at? database.allTrackIds
        (max 0 (min index ((database.allTrackIds.length : Int) - 1))) = some id →
      database.getTrack id = none → app.cuePoints = []) :
    ∃ app', app.selectTrack index = some app' ∧ app'.Sound opened ∧ app'.databaseLoaded = true ∧
      app'.cursor = app.cursor.select visibleTracks app.trackIds.length index := by
  obtain ⟨id, hid⟩ := Option.isSome_iff_exists.mp
    ((at?_isSome_iff _ _).mpr ⟨hselect.index_nonneg, hselect.index_lt⟩)
  obtain ⟨app', happ', hdetails, hdatabase', hloaded', hmessage', hids', hcursor', hkept⟩ :=
    loadTrackDetails_details
      { app with cursor := app.cursor.select visibleTracks app.trackIds.length index } hdatabase id
  have hid' : at? app'.trackIds app'.cursor.index = some id := by rw [hids', hcursor', hid]
  have hmemId : id ∈ database.allTrackIds := hids ▸ mem_of_at? hid
  refine ⟨app', ?_, ⟨?_, fun _ => ⟨hmessage'.trans hmessage, database, hmem,
    hdatabase'.trans hdatabase, hids'.trans hids⟩, fun hf => ?_, fun _ => ?_,
    fun _ => ⟨database, id, hdatabase'.trans hdatabase, hid', hdetails⟩, fun track htrack => ?_,
    fun hne' => ?_, fun hstays _ hcurrent => ?_⟩, hloaded'.trans hloaded, hcursor'⟩
  · rw [OfApp.selectTrack, if_neg (by simpa using hne)]
    simp only [hid, Option.bind_eq_bind, Option.bind_some]
    exact happ'
  · rw [hcursor']
    exact hselect.offset_nonneg
  · exact absurd (hf.symm.trans (hloaded'.trans hloaded)) (by decide)
  · rw [hcursor', hids']
    exact hselect
  · exact ⟨database, hmem, id, hmemId, hdetails.currentTrack.symm.trans htrack⟩
  · cases htrack : database.getTrack id with
    | none => exact hcues (hkept htrack ▸ hne')
    | some track =>
        obtain ⟨-, -, -, -, -, -, hnew⟩ :=
          hdetails.names track (hdetails.currentTrack.trans htrack)
        exact ⟨database, hmem, id, hmemId, by simp [htrack], hnew ▸ hne'⟩
  · have hnone := hdetails.currentTrack.symm.trans hcurrent
    rw [hkept hnone]
    rw [hids] at hid
    exact hsettles hstays id hid hnone

theorem sound_initial (opened : Set Database) : ({} : OfApp).Sound opened where
  offset_nonneg := Int.le_refl 0
  loaded h := absurd h Bool.false_ne_true
  unloaded _ := rfl
  onShow h := absurd rfl h
  details h := absurd rfl h
  found _ h := absurd h.symm (Option.some_ne_none _)
  cues h := absurd rfl h
  settled _ _ _ := rfl

theorem OfApp.Sound.loadDatabase (h : app.Sound opened) {dropped : Dropped}
    (hopens : (Move.drop dropped).OpensFrom opened) :
    ∃ app', app.loadDatabase dropped = some app' ∧ app'.Sound opened := by
  have hnone : ∀ {message},
      { app with errorMessage := message, trackIds := [], databaseLoaded := false }.Sound opened :=
    fun {message} => ⟨h.offset_nonneg, fun hloaded => absurd hloaded Bool.false_ne_true,
      fun _ => rfl, fun hne => absurd rfl hne, fun hne => absurd rfl hne, h.found, h.cues,
      fun _ hloaded => absurd hloaded Bool.false_ne_true⟩
  cases dropped with
  | notFound path => exact ⟨_, rfl, hnone⟩
  | failed message => exact ⟨_, rfl, hnone⟩
  | opened database anlz =>
      have hmem := hopens database rfl
      by_cases hids : database.allTrackIds = []
      -- an empty list: `selectTrack` returns at once, and the details stay
      · refine ⟨{ app with
          errorMessage := "", databaseLoaded := true, database := some database, trackIds := [] },
          ?_, h.offset_nonneg, fun _ => ⟨rfl, database, hmem, rfl, hids.symm⟩,
          fun hf => absurd hf.symm Bool.false_ne_true,
          fun hne => absurd rfl hne, fun hne => absurd rfl hne, h.found, h.cues,
          fun hstays _ _ => ?_⟩
        · simp [OfApp.loadDatabase, OfApp.selectTrack, hids]
        · by_contra hne
          obtain ⟨other, hother, id, hid, hfound, -⟩ := h.cues hne
          exact hfound (hstays.empty database hmem hids other hother id hid)
      · have hlength := List.length_pos_iff.mpr hids
        obtain ⟨app', happ', hsound, -⟩ := selectTrack_sound
          { app with
            errorMessage := "", databaseLoaded := true, database := some database,
            trackIds := database.allTrackIds } hmem rfl rfl rfl rfl hids
          (Cursor.onShow_select_zero (by decide) (by simpa using hlength) h.offset_nonneg) h.cues
          fun hstays id hid hnotFound => by
            have htop : max 0 (min 0 ((database.allTrackIds.length : Int) - 1)) = 0 := by omega
            rw [htop] at hid
            by_contra hne
            obtain ⟨other, hother, id', hid', hfound, hcues⟩ := h.cues hne
            exact hcues (hstays.first database hmem id hid hnotFound other hother id' hid' hfound)
        exact ⟨app', happ', hsound⟩

/-- A key that moves the selection to its goal. -/
theorem OfApp.Sound.selectTrack (h : app.Sound opened) (hloaded : app.databaseLoaded = true)
    (hne : app.trackIds ≠ []) (pressed : Pressed) :
    ∃ app', app.selectTrack (pressed.goal app.trackIds.length app.cursor.index) = some app' ∧
      app'.Sound opened ∧ app'.databaseLoaded = true ∧ app'.cursor = app.cursor.select visibleTracks
        app.trackIds.length (pressed.goal app.trackIds.length app.cursor.index) := by
  obtain ⟨hmessage, database, hmem, hdatabase, hids⟩ := h.loaded hloaded
  have hshow := h.onShow hne
  have hlength := List.length_pos_iff.mpr hne
  refine selectTrack_sound app hmem hdatabase hids hloaded hmessage hne
    (Cursor.onShow_select (by decide) (by omega) _ h.offset_nonneg hshow.window_le) h.cues
    fun hstays id hid hnone => ?_
  obtain ⟨database', current, hdatabase', hcurrent, hdetails⟩ := h.details hne
  obtain rfl := Option.some.inj (hdatabase.symm.trans hdatabase')
  cases htrack : database.getTrack current with
  | none => exact h.settled hstays hloaded (hdetails.currentTrack.trans htrack)
  | some track =>
      obtain ⟨-, -, -, -, -, -, hcues⟩ :=
        hdetails.names track (hdetails.currentTrack.trans htrack)
      by_contra hne'
      rw [hids] at hcurrent hid
      exact hstays.key database hmem app.cursor.index current id pressed hcurrent
        (by simp [htrack]) (hcues ▸ hne') hid hnone

theorem keyPressed_cases (hloaded : app.databaseLoaded = true) (hne : app.trackIds ≠ [])
    (pressed : Pressed) : pressed = .other ∧ app.keyPressed pressed = some app ∨
      app.keyPressed pressed =
        app.selectTrack (pressed.goal app.trackIds.length app.cursor.index) := by
  have hguard : (!app.databaseLoaded || app.trackIds.isEmpty) = false := by simp [hloaded, hne]
  rw [OfApp.keyPressed.eq_def, hguard]
  cases pressed with
  | other => exact .inl ⟨rfl, rfl⟩
  | _ => exact .inr rfl

theorem OfApp.Sound.keyPressed (h : app.Sound opened) (pressed : Pressed) :
    ∃ app', app.keyPressed pressed = some app' ∧ app'.Sound opened := by
  by_cases hguard : app.databaseLoaded = true ∧ app.trackIds ≠ []
  · obtain ⟨hloaded, hne⟩ := hguard
    rcases keyPressed_cases hloaded hne pressed with ⟨-, hsame⟩ | hselect
    · exact ⟨app, hsame, h⟩
    · obtain ⟨app', happ', hsound, -⟩ := h.selectTrack hloaded hne pressed
      exact ⟨app', hselect.trans happ', hsound⟩
  · refine ⟨app, ?_, h⟩
    have hguard : (!app.databaseLoaded || app.trackIds.isEmpty) = true := by
      cases hloaded : app.databaseLoaded <;> simp_all
    rw [OfApp.keyPressed.eq_def, hguard]
    rfl

theorem OfApp.Sound.move (app : OfApp) (m : Move) (h : app.Sound opened)
    (hm : m.OpensFrom opened) : ∃ app', app.move m = some app' ∧ app'.Sound opened := by
  cases m with
  | drop dropped => exact h.loadDatabase hm
  | key pressed => exact h.keyPressed pressed

/-! ### Whole runs -/

/-- Every track of a database is selected after so many steps down. -/
theorem exists_selected (database : Database) {n : ℕ} (hn : n < database.allTrackIds.length) :
    ∃ app, run OfApp.move {} (.drop (.opened database true) :: List.replicate n (.key .down)) =
        some app ∧ app.Sound {database} ∧ app.databaseLoaded = true ∧ app.cursor.index = n := by
  have hids : database.allTrackIds ≠ [] := List.ne_nil_of_length_pos (by omega)
  induction n with
  | zero =>
      obtain ⟨app, happ, hsound, hloaded, hcursor⟩ := selectTrack_sound
        { databaseLoaded := true, database := some database, trackIds := database.allTrackIds }
        (show database ∈ ({database} : Set Database) from rfl) rfl rfl rfl rfl hids
        (Cursor.onShow_select_zero (by decide) (by simpa using hn) (Int.le_refl 0))
        (fun hne => absurd rfl hne) (fun _ _ _ _ => rfl)
      refine ⟨app, ?_, hsound, hloaded, ?_⟩
      · rw [List.replicate_zero, run_cons]
        show (OfApp.selectTrack _ 0).bind _ = _
        rw [happ]
        rfl
      · rw [hcursor]
        simp only [Cursor.select]
        omega
  | succ n ih =>
      obtain ⟨app, happ, hsound, hloaded, hindex⟩ := ih (by omega)
      obtain ⟨-, other, rfl, -, hlist⟩ := hsound.loaded hloaded
      have hne : app.trackIds ≠ [] := hlist ▸ hids
      obtain ⟨app', happ', hsound', hloaded', hcursor'⟩ := hsound.selectTrack hloaded hne .down
      refine ⟨app', ?_, hsound', hloaded', ?_⟩
      · rw [List.replicate_succ', ← List.cons_append, run_append, happ, Option.bind_some, run_cons]
        rw [Pressed.goal] at happ'
        simp [OfApp.move, OfApp.keyPressed, hloaded, hne, happ']
      · rw [hcursor', hlist]
        simp only [Cursor.select, Pressed.goal]
        omega

/-- The same with what is then on show, for a track that can be found. -/
theorem exists_found {database : Database} {i : Int} {id : TrackId}
    (hid : at? database.allTrackIds i = some id) (hfound : database.getTrack id ≠ none) :
    ∃ n app, run OfApp.move {} (.drop (.opened database true) :: List.replicate n (.key .down)) =
        some app ∧ app.databaseLoaded = true ∧ app.database = some database ∧
        app.trackIds = database.allTrackIds ∧ app.cursor.index = i ∧
        app.cursor.OnShow visibleTracks app.trackIds.length ∧
        app.currentTrack = database.getTrack id ∧
        app.cuePoints = database.getCuePointsForTrack id := by
  obtain ⟨hnonneg, hlt⟩ := (at?_isSome_iff _ _).mp (by rw [hid]; rfl)
  obtain ⟨n, rfl⟩ := Int.eq_ofNat_of_zero_le hnonneg
  obtain ⟨app, happ, hsound, hloaded, hindex⟩ := exists_selected database (by omega : n < _)
  obtain ⟨-, other, rfl, hdatabase, hlist⟩ := hsound.loaded hloaded
  have hne : app.trackIds ≠ [] := hlist ▸ List.ne_nil_of_length_pos (by omega)
  obtain ⟨database, id', hdatabase', hat, hdetails⟩ := hsound.details hne
  obtain rfl := Option.some.inj (hdatabase.symm.trans hdatabase')
  rw [hindex, hlist, hid] at hat
  obtain rfl := Option.some.inj hat
  obtain ⟨track, htrack⟩ := Option.ne_none_iff_exists'.mp hfound
  obtain ⟨-, -, -, -, -, -, hcues⟩ := hdetails.names track (hdetails.currentTrack.trans htrack)
  exact ⟨n, app, happ, hloaded, hdatabase, hlist, hindex, hsound.onShow hne,
    hdetails.currentTrack, hcues⟩

/-- What the viewer should show once something is loaded. -/
structure OfApp.Coherent (app : OfApp) (opened : Set Database) : Prop where
  message : app.errorMessage = ""
  shows : ∃ database ∈ opened, app.database = some database ∧
    app.trackIds = database.allTrackIds ∧
    (app.trackIds ≠ [] → app.cursor.OnShow visibleTracks app.trackIds.length) ∧
    app.currentTrack = (at? app.trackIds app.cursor.index).bind database.getTrack ∧
    (app.currentTrack = none → app.cuePoints = []) ∧
    ∀ id, at? app.trackIds app.cursor.index = some id → app.Details database id

theorem OfApp.Sound.coherent (h : app.Sound opened) (hstays : NothingStays opened)
    (hloaded : app.databaseLoaded = true) : app.Coherent opened := by
  obtain ⟨hmessage, database, hmem, hdatabase, hlist⟩ := h.loaded hloaded
  refine ⟨hmessage, database, hmem, hdatabase, hlist, h.onShow, ?_⟩
  by_cases hne : app.trackIds = []
  · have hat : at? app.trackIds app.cursor.index = none := by simp [hne, at?]
    refine ⟨?_, h.settled hstays hloaded,
      fun id hid => absurd (hid.symm.trans hat) (Option.some_ne_none id)⟩
    rw [hat, Option.bind_none, Option.eq_none_iff_forall_ne_some]
    intro track htrack
    obtain ⟨other, hother, id, hid, hfound⟩ := h.found track htrack
    have hnone := hstays.empty database hmem (hlist ▸ hne) other hother id hid
    exact absurd (hfound.symm.trans hnone) (Option.some_ne_none track)
  · obtain ⟨database', id, hdatabase', hat, hdetails⟩ := h.details hne
    obtain rfl := Option.some.inj (hdatabase.symm.trans hdatabase')
    rw [hat, Option.bind_some]
    refine ⟨hdetails.currentTrack, h.settled hstays hloaded, fun id' hid' => ?_⟩
    obtain rfl := Option.some.inj hid'
    exact hdetails

/-- Without a track that can be found nothing is shown of one. -/
theorem OfApp.Coherent.cuePoints_eq_nil (h : app.Coherent opened)
    (hdatabase : app.database = some database)
    (hnone : ∀ id, at? app.trackIds app.cursor.index = some id → database.getTrack id = none) :
    app.currentTrack = none ∧ app.cuePoints = [] := by
  obtain ⟨-, other, -, hother, -, -, hcurrent, hcues, -⟩ := h
  obtain rfl := Option.some.inj (hdatabase.symm.trans hother)
  have hnotFound : app.currentTrack = none := by
    rw [hcurrent]
    cases hat : at? app.trackIds app.cursor.index with
    | none => rfl
    | some id => exact hnone id hat
  exact ⟨hnotFound, hcues hnotFound⟩

/-- A track that cannot be found leaves the cue points. -/
theorem selectTrack_of_not_found (app : OfApp) (hdatabase : app.database = some database)
    {index : Int} {id : TrackId}
    (hid : at? app.trackIds
      (app.cursor.select visibleTracks app.trackIds.length index).index = some id)
    (hnone : database.getTrack id = none) : app.selectTrack index = some { app with
      cursor := app.cursor.select visibleTracks app.trackIds.length index
      currentTrack := none } := by
  have hne : app.trackIds ≠ [] := by
    intro hempty
    simp [hempty, at?] at hid
  simp [OfApp.selectTrack, OfApp.loadTrackDetails, hne, hid, hdatabase, hnone]

/-- A run up to a track and one more move. -/
theorem opensFrom_reach {full : Database} (hfull : full ∈ opened) (n : ℕ) {last : Move}
    (hlast : last.OpensFrom opened) :
    ∀ m ∈ (Move.drop (.opened full true) :: List.replicate n (.key .down)) ++ [last],
      m.OpensFrom opened := by
  intro m hm
  obtain rfl | ⟨-, rfl⟩ | rfl : m = .drop (.opened full true) ∨ ¬ n = 0 ∧ m = .key .down ∨
      m = last := by
    simpa [List.mem_replicate] using hm
  · intro database hdatabase
    obtain rfl : full = database := Option.some.inj hdatabase
    exact hfull
  · exact fun database hdatabase => by cases hdatabase
  · exact hlast

theorem opensFrom_drop (hmem : database ∈ opened) :
    (Move.drop (.opened database true)).OpensFrom opened := by
  intro database' hdatabase'
  obtain rfl : database = database' := Option.some.inj hdatabase'
  exact hmem

section Coherent

variable (hruns : ∀ moves : List Move, (∀ m ∈ moves, m.OpensFrom opened) →
  ∃ app, run OfApp.move {} moves = some app ∧
    (app.databaseLoaded = true → app.Coherent opened))

include hruns

/-- A run up to a track that can be found, and one more move. -/
theorem coherent_of_last {full : Database} (hfull : full ∈ opened) {n : ℕ} {shown last : OfApp}
    {m : Move}
    (hshown : run OfApp.move {} (.drop (.opened full true) :: List.replicate n (.key .down)) =
      some shown) (hm : m.OpensFrom opened) (hmove : shown.move m = some last)
    (hloaded : last.databaseLoaded = true) : last.Coherent opened := by
  obtain ⟨app, happ, hcoherent⟩ := hruns _ (opensFrom_reach hfull n hm)
  rw [run_append, hshown, Option.bind_some, run_cons, hmove] at happ
  obtain rfl := Option.some.inj happ
  exact hcoherent hloaded

theorem getTrack_eq_none_of_empty (hmem : database ∈ opened) (hempty : database.allTrackIds = [])
    {other : Database} (hother : other ∈ opened) {id : TrackId} (hid : id ∈ other.allTrackIds) :
    other.getTrack id = none := by
  by_contra hfound
  obtain ⟨i, hi⟩ := List.mem_iff_getElem?.mp hid
  obtain ⟨n, shown, hshown, -, -, -, -, -, hcurrent, -⟩ :=
    exists_found (by rw [at?_natCast, hi] : at? other.allTrackIds i = some id) hfound
  have hmove : shown.move (.drop (.opened database true)) = some { shown with
      errorMessage := "", databaseLoaded := true, database := some database,
      trackIds := [] } := by
    simp [OfApp.move, OfApp.loadDatabase, OfApp.selectTrack, hempty]
  have hlast := coherent_of_last hruns hother hshown (opensFrom_drop hmem) hmove rfl
  obtain ⟨hnone, -⟩ := hlast.cuePoints_eq_nil rfl fun id' hid' => by simp [at?] at hid'
  exact hfound (hcurrent.symm.trans hnone)

theorem cuePoints_eq_nil_of_first (hmem : database ∈ opened) {id : TrackId}
    (hid : at? database.allTrackIds 0 = some id) (hnotFound : database.getTrack id = none)
    {other : Database} (hother : other ∈ opened) {id' : TrackId} (hid' : id' ∈ other.allTrackIds)
    (hfound : other.getTrack id' ≠ none) : other.getCuePointsForTrack id' = [] := by
  by_contra hcues
  obtain ⟨i, hi⟩ := List.mem_iff_getElem?.mp hid'
  obtain ⟨n, shown, hshown, -, -, -, -, -, -, hshows⟩ :=
    exists_found (by rw [at?_natCast, hi] : at? other.allTrackIds i = some id') hfound
  obtain ⟨-, hlength⟩ := (at?_isSome_iff database.allTrackIds 0).mp (by rw [hid]; rfl)
  have htop : max 0 (min 0 ((database.allTrackIds.length : Int) - 1)) = 0 := by omega
  have hat : at? database.allTrackIds
      (shown.cursor.select visibleTracks database.allTrackIds.length 0).index = some id := by
    rw [Cursor.select, htop, hid]
  have hmove := selectTrack_of_not_found
    { shown with
      errorMessage := "", databaseLoaded := true, database := some database,
      trackIds := database.allTrackIds } rfl hat hnotFound
  have hlast := coherent_of_last hruns hother hshown (opensFrom_drop hmem) hmove rfl
  obtain ⟨-, hnone⟩ := hlast.cuePoints_eq_nil rfl
    fun id'' hid'' => by rwa [← Option.some.inj (hat.symm.trans hid'')]
  exact hcues (hshows.symm.trans hnone)

theorem getTrack_ne_none_of_key (hmem : database ∈ opened) {i : Int} {id id' : TrackId}
    (pressed : Pressed) (hid : at? database.allTrackIds i = some id)
    (hfound : database.getTrack id ≠ none) (hcues : database.getCuePointsForTrack id ≠ [])
    (hid' : at? database.allTrackIds (max 0 (min (pressed.goal database.allTrackIds.length i)
      ((database.allTrackIds.length : Int) - 1))) = some id') : database.getTrack id' ≠ none := by
  intro hnotFound
  obtain ⟨n, shown, hshown, hloaded, hdatabase, hlist, hindex, -, -, hshows⟩ :=
    exists_found hid hfound
  have hne : shown.trackIds ≠ [] := by
    rw [hlist]
    exact List.ne_nil_of_mem (mem_of_at? hid)
  have hat : at? shown.trackIds (shown.cursor.select visibleTracks shown.trackIds.length
      (pressed.goal shown.trackIds.length shown.cursor.index)).index = some id' := by
    rw [Cursor.select, hlist, hindex, hid']
  rcases keyPressed_cases hloaded hne pressed with ⟨rfl, -⟩ | hselect
  · obtain ⟨hnonneg, hlt⟩ := (at?_isSome_iff _ _).mp (by rw [hid]; rfl)
    have hstays : max 0 (min i ((database.allTrackIds.length : Int) - 1)) = i := by omega
    rw [Pressed.goal, hstays, hid] at hid'
    exact hfound (Option.some.inj hid' ▸ hnotFound)
  · have hmove := hselect.trans (selectTrack_of_not_found shown hdatabase hat hnotFound)
    have hlast := coherent_of_last hruns hmem hshown (m := .key pressed)
      (fun database hdatabase => by cases hdatabase) hmove hloaded
    obtain ⟨-, hnone⟩ := hlast.cuePoints_eq_nil hdatabase
      fun id'' hid'' => by rwa [← Option.some.inj (hat.symm.trans hid'')]
    exact hcues (hshows.symm.trans hnone)

end Coherent

/-- **Details.** Whatever is dropped and pressed, an export that is loaded shows no
error; with a track in its list one is selected and on show; and the details, cue
points included, are those of the selected track, or none without one that can be
found. The last is so exactly if nothing of another track can stay. -/
theorem details_iff (opened : Set Database) :
    (∀ moves : List Move, (∀ m ∈ moves, m.OpensFrom opened) →
      ∃ app, run OfApp.move {} moves = some app ∧
        (app.databaseLoaded = true → app.Coherent opened)) ↔
      NothingStays opened := by
  constructor
  · intro hruns
    exact ⟨fun _ hmem hempty _ hother _ hid =>
        getTrack_eq_none_of_empty hruns hmem hempty hother hid,
      fun _ hmem _ hid hnotFound _ hother _ hid' hfound =>
        cuePoints_eq_nil_of_first hruns hmem hid hnotFound hother hid' hfound,
      fun _ hmem _ _ _ pressed hid hfound hcues hid' =>
        getTrack_ne_none_of_key hruns hmem pressed hid hfound hcues hid'⟩
  · intro hstays moves hmoves
    obtain ⟨app, happ, hsound⟩ := exists_run OfApp.Sound.move (sound_initial opened) hmoves
    exact ⟨app, happ, hsound.coherent hstays⟩

end TrackDetail

end DjLink
