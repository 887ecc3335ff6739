import Mathlib.Data.Set.Basic
import DjLink.Examples.CrateDigger
import DjLink.Library.PartialRun

/-!
The browser of `example-tag-browser`: the categories of one database, the tags
of the selected category, and the tracks with the selected tag, whose rows are
looked up in a second database when there is one. As in the browser of the
playlists a frame is what it reads.

Each selection refreshes the panels to its right, if it is an entry of its list.
In an empty list it is not, and the two headers read in front of the list.
-/

namespace DjLink

open CrateDigger ListCursor PartialRun

namespace TagBrowser

def visibleRows : Int := 20

/-- The rows of the panel of tracks as long as it shows numbers only. -/
def visibleIds : Int := 15

inductive FocusPanel where
  | categories
  | tags
  | tracks
  deriving DecidableEq

def FocusPanel.next : FocusPanel → FocusPanel
  | .categories => .tags
  | .tags => .tracks
  | .tracks => .categories

def FocusPanel.left : FocusPanel → FocusPanel
  | .categories => .categories
  | .tags => .categories
  | .tracks => .tags

def FocusPanel.right : FocusPanel → FocusPanel
  | .categories => .tags
  | .tags => .tracks
  | .tracks => .tracks

structure OfApp where
  database : Option Database := none
  extDatabase : Option Database := none
  databaseLoaded : Bool := false
  extDatabaseLoaded : Bool := false
  errorMessage : String := ""
  categoryIds : List TagId := []
  selectedCategoryIndex : Int := 0
  tagsInCategory : List TagId := []
  selectedTagIndex : Int := 0
  taggedTracks : List TrackId := []
  /-- `selectedTrackIndex` and `trackScrollOffset`. -/
  trackCursor : Cursor := {}
  focusPanel : FocusPanel := .categories

inductive Pressed where
  | tab
  | left
  | right
  | up
  | down
  | other

inductive Move where
  | load (result : Except String Database)
  | loadExt (result : Except String Database)
  | key (pressed : Pressed)

namespace OfApp

def selectTag (self : OfApp) (index : Int) : Option OfApp :=
  match at? self.tagsInCategory index with
  | none => some self
  | some tag => do
      let extDatabase ← self.extDatabase
      return { self with taggedTracks := extDatabase.findTracksByTag tag, trackCursor := {} }

def selectCategory (self : OfApp) (index : Int) : Option OfApp :=
  match at? self.categoryIds index with
  | none => some self
  | some category => do
      let extDatabase ← self.extDatabase
      let self := { self with
        tagsInCategory := extDatabase.getTagsInCategory category
        selectedTagIndex := 0
        taggedTracks := []
        trackCursor := {} }
      -- here the tracks are gone already
      if self.tagsInCategory.isEmpty then some self else self.selectTag 0

def loadDatabase (self : OfApp) (result : Except String Database) : OfApp :=
  match result with
  | .error message => { self with errorMessage := "export.pdb: " ++ message }
  | .ok database => { self with database := some database, databaseLoaded := true }

def loadExtDatabase (self : OfApp) (result : Except String Database) : Option OfApp :=
  match result with
  | .error message => some { self with errorMessage := "exportExt.pdb: " ++ message }
  | .ok database =>
      let self := { self with
        extDatabase := some database
        extDatabaseLoaded := true
        categoryIds := database.allCategoryIds
        selectedCategoryIndex := 0 }
      -- without categories the tags and the tracks of the last database stay
      if self.categoryIds.isEmpty then some self else self.selectCategory 0

def moveCategory (self : OfApp) (index : Int) : Option OfApp :=
  { self with selectedCategoryIndex := index }.selectCategory index

def moveTag (self : OfApp) (index : Int) : Option OfApp :=
  { self with selectedTagIndex := index }.selectTag index

def keyPressed (self : OfApp) (pressed : Pressed) : Option OfApp :=
  if !self.extDatabaseLoaded then some self
  else
    match pressed with
    | .tab => some { self with focusPanel := self.focusPanel.next }
    | .left => some { self with focusPanel := self.focusPanel.left }
    | .right => some { self with focusPanel := self.focusPanel.right }
    | .up =>
        match self.focusPanel with
        | .categories => self.moveCategory (max 0 (self.selectedCategoryIndex - 1))
        | .tags => self.moveTag (max 0 (self.selectedTagIndex - 1))
        | .tracks => some { self with trackCursor := self.trackCursor.up }
    | .down =>
        match self.focusPanel with
        | .categories =>
            self.moveCategory
              (min ((self.categoryIds.length : Int) - 1) (self.selectedCategoryIndex + 1))
        | .tags =>
            self.moveTag (min ((self.tagsInCategory.length : Int) - 1) (self.selectedTagIndex + 1))
        | .tracks =>
            some { self with
              trackCursor := self.trackCursor.down visibleRows self.taggedTracks.length }
    | .other => some self

def move (self : OfApp) : Move → Option OfApp
  | .load result => some (self.loadDatabase result)
  | .loadExt result => self.loadExtDatabase result
  | .key pressed => self.keyPressed pressed

end OfApp

/-- What a frame shows of a loaded database: the rows of the panels and the
names above the second and the third. -/
structure View where
  categories : List TagId
  category : Option TagId
  tags : List TagId
  tag : Option TagId
  tracks : List TrackId
  /-- The rows of the tracks, or nothing as long as there are only numbers. -/
  rows : Option (List TrackRow)

namespace OfApp

def trackRows (self : OfApp) : Int := if self.databaseLoaded then visibleRows else visibleIds

/-- `get_track` for every number on show. -/
def drawRows (self : OfApp) (tracks : List TrackId) : Option (Option (List TrackRow)) :=
  if self.databaseLoaded then
    self.database.map fun database => some (tracks.filterMap database.getTrack)
  else some none

def draw (self : OfApp) : Option View := do
  let category ← readBelow self.categoryIds self.selectedCategoryIndex
  let tag ← readBelow self.tagsInCategory self.selectedTagIndex
  let tracks ← readWindow self.trackRows self.taggedTracks self.trackCursor.offset
  let rows ← self.drawRows tracks
  return {
    categories := self.categoryIds.take 20
    category := category
    tags := self.tagsInCategory.take 20
    tag := tag
    tracks := tracks
    rows := rows }

end OfApp

/-- The database of tags that a move opens. -/
def Move.opens : Move → Option Database
  | .load _ => none
  | .loadExt (.ok database) => some database
  | .loadExt (.error _) => none
  | .key _ => none

/-- What a move opens is one of the databases that may be opened. -/
def Move.OpensFrom (opened : Set Database) (m : Move) : Prop :=
  ∀ database, m.opens = some database → database ∈ opened

/-- A database in which something can be selected in every list. -/
def Full (database : Database) : Prop :=
  database.allCategoryIds ≠ [] ∧
    ∀ category ∈ database.allCategoryIds, database.getTagsInCategory category ≠ []

variable {app : OfApp} {ext : Database} {opened : Set Database}

theorem selectTag_eq (app : OfApp) (hext : app.extDatabase = some ext) {index : Int} {tag : TagId}
    (htag : at? app.tagsInCategory index = some tag) :
    app.selectTag index =
      some { app with taggedTracks := ext.findTracksByTag tag, trackCursor := {} } := by
  simp [OfApp.selectTag, htag, hext]

/-- The tracks after a category is selected are those of its first tag. -/
theorem selectCategory_eq (app : OfApp) (hext : app.extDatabase = some ext) {index : Int}
    {category : TagId} (hcategory : at? app.categoryIds index = some category) :
    app.selectCategory index = some { app with
      tagsInCategory := ext.getTagsInCategory category
      selectedTagIndex := 0
      taggedTracks := (ext.getTagsInCategory category).head?.elim [] ext.findTracksByTag
      trackCursor := {} } := by
  cases htags : ext.getTagsInCategory category with
  | nil => simp [OfApp.selectCategory, hcategory, hext, htags]
  | cons tag tags => simp [OfApp.selectCategory, OfApp.selectTag, hcategory, hext, htags]

/-! ### The invariant -/

/-- The panels agree: a category is selected and the tags are its tags, and a
tag is selected and the tracks are its tracks. -/
structure OfApp.Browses (app : OfApp) (ext : Database) : Prop where
  extDatabase_eq : app.extDatabase = some ext
  categoryIds_eq : app.categoryIds = ext.allCategoryIds
  category : ∃ category, at? ext.allCategoryIds app.selectedCategoryIndex = some category ∧
    app.tagsInCategory = ext.getTagsInCategory category
  tag : ∃ tag, at? app.tagsInCategory app.selectedTagIndex = some tag ∧
    app.taggedTracks = ext.findTracksByTag tag
  fits : app.trackCursor.Fits visibleRows app.taggedTracks.length

structure OfApp.Sound (app : OfApp) (opened : Set Database) : Prop where
  loaded : app.databaseLoaded = true → app.database.isSome
  browses : app.extDatabaseLoaded = true → ∃ ext ∈ opened, app.Browses ext

theorem fits_reset (size : ℕ) : Cursor.Fits visibleRows size {} :=
  Cursor.fits_initial (by decide) (Int.natCast_nonneg size)

/-- Going to a category of a full database. -/
theorem moveCategory_browses (app : OfApp) (hext : app.extDatabase = some ext)
    (hids : app.categoryIds = ext.allCategoryIds) (hfull : Full ext) (index : Int)
    (hindex : 0 ≤ index ∧ index < app.categoryIds.length) :
    ∃ app', app.moveCategory index = some app' ∧ app'.Browses ext ∧
      app'.databaseLoaded = app.databaseLoaded ∧ app'.database = app.database := by
  obtain ⟨category, hcategory⟩ := Option.isSome_iff_exists.mp
    ((at?_isSome_iff app.categoryIds index).mpr hindex)
  have htags := hfull.2 category (hids ▸ mem_of_at? hcategory)
  obtain ⟨tag, tags, htag⟩ := List.exists_cons_of_ne_nil htags
  refine ⟨_, selectCategory_eq { app with selectedCategoryIndex := index } hext hcategory,
    ⟨hext, hids, ⟨category, hids ▸ hcategory, rfl⟩, ⟨tag, ?_, ?_⟩, fits_reset _⟩, rfl, rfl⟩
  · simp only [htag]
    rfl
  · simp only [htag]
    rfl

theorem OfApp.Browses.moveTag (h : app.Browses ext) {index : Int}
    (hindex : 0 ≤ index ∧ index < app.tagsInCategory.length) :
    ∃ app', app.moveTag index = some app' ∧ app'.Browses ext ∧
      app'.databaseLoaded = app.databaseLoaded ∧ app'.database = app.database := by
  obtain ⟨tag, htag⟩ := Option.isSome_iff_exists.mp
    ((at?_isSome_iff app.tagsInCategory index).mpr hindex)
  exact ⟨_, selectTag_eq { app with selectedTagIndex := index } h.extDatabase_eq htag,
    ⟨h.extDatabase_eq, h.categoryIds_eq, h.category, ⟨tag, htag, rfl⟩, fits_reset _⟩, rfl, rfl⟩

/-- What the selection of a browsed database is. -/
theorem OfApp.Browses.index_bounds (h : app.Browses ext) :
    (0 ≤ app.selectedCategoryIndex ∧ app.selectedCategoryIndex < app.categoryIds.length) ∧
      0 ≤ app.selectedTagIndex ∧ app.selectedTagIndex < app.tagsInCategory.length := by
  obtain ⟨category, hcategory, -⟩ := h.category
  obtain ⟨tag, htag, -⟩ := h.tag
  rw [h.categoryIds_eq]
  exact ⟨(at?_isSome_iff _ _).mp (by rw [hcategory]; rfl),
    (at?_isSome_iff _ _).mp (by rw [htag]; rfl)⟩

/-- A change of the track cursor, the focus or the message alone. -/
theorem OfApp.Browses.frame (h : app.Browses ext) {cursor : Cursor} {focus : FocusPanel}
    {message : String} {database : Option Database} {loaded : Bool}
    (hfits : cursor.Fits visibleRows app.taggedTracks.length) :
    { app with
      trackCursor := cursor, focusPanel := focus, errorMessage := message,
      database := database, databaseLoaded := loaded }.Browses ext :=
  ⟨h.extDatabase_eq, h.categoryIds_eq, h.category, h.tag, hfits⟩

theorem loadDatabase_sound (h : app.Sound opened) (result : Except String Database) :
    (app.loadDatabase result).Sound opened := by
  have hbrowses : ∀ {database loaded message}, app.extDatabaseLoaded = true →
      ∃ ext ∈ opened, { app with
        database := database, databaseLoaded := loaded, errorMessage := message }.Browses ext := by
    intro database loaded message hext
    obtain ⟨ext, hmem, hb⟩ := h.browses hext
    exact ⟨ext, hmem, hb.frame hb.fits⟩
  cases result with
  | error message => exact ⟨h.loaded, hbrowses⟩
  | ok database => exact ⟨fun _ => rfl, hbrowses⟩

theorem loadExtDatabase_sound (h : app.Sound opened) {result : Except String Database}
    (hopened : ∀ database, result = .ok database → database ∈ opened)
    (hfull : ∀ database ∈ opened, Full database) :
    ∃ app', app.loadExtDatabase result = some app' ∧ app'.Sound opened := by
  cases result with
  | error message =>
      refine ⟨_, rfl, h.loaded, fun hext => ?_⟩
      obtain ⟨ext, hmem, hb⟩ := h.browses hext
      exact ⟨ext, hmem, hb.frame hb.fits⟩
  | ok database =>
      have hmem := hopened database rfl
      have hne := (hfull database hmem).1
      have hlength := List.length_pos_iff.mpr hne
      obtain ⟨app', happ', hb, hloaded, hdatabase⟩ := moveCategory_browses
        { app with
          extDatabase := some database, extDatabaseLoaded := true,
          categoryIds := database.allCategoryIds, selectedCategoryIndex := 0 }
        rfl rfl (hfull database hmem) 0 (by simpa using hlength)
      refine ⟨app', ?_, ?_, fun _ => ⟨database, hmem, hb⟩⟩
      · rw [OfApp.loadExtDatabase, if_neg (by simpa using hne)]
        exact happ'
      · rw [hloaded, hdatabase]
        exact h.loaded

theorem keyPressed_sound (h : app.Sound opened) (hfull : ∀ database ∈ opened, Full database)
    (pressed : Pressed) : ∃ app', app.keyPressed pressed = some app' ∧ app'.Sound opened := by
  rw [OfApp.keyPressed.eq_def]
  split
  next => exact ⟨app, rfl, h⟩
  next hloaded =>
    obtain ⟨ext, hmem, hb⟩ := h.browses (by simpa using hloaded)
    have hbounds := hb.index_bounds
    -- all that a key does is one of these three
    have hframe : ∀ {cursor focus}, cursor.Fits visibleRows app.taggedTracks.length →
        { app with trackCursor := cursor, focusPanel := focus }.Sound opened :=
      fun hfits => ⟨h.loaded, fun _ => ⟨ext, hmem, hb.frame hfits⟩⟩
    have hcategory : ∀ {index : Int}, 0 ≤ index ∧ index < app.categoryIds.length →
        ∃ app', app.moveCategory index = some app' ∧ app'.Sound opened := by
      intro index hindex
      obtain ⟨app', happ', hb', hloaded', hdatabase'⟩ := moveCategory_browses app
        hb.extDatabase_eq hb.categoryIds_eq (hfull ext hmem) index hindex
      exact ⟨app', happ', by rw [hloaded', hdatabase']; exact h.loaded, fun _ => ⟨ext, hmem, hb'⟩⟩
    have htag : ∀ {index : Int}, 0 ≤ index ∧ index < app.tagsInCategory.length →
        ∃ app', app.moveTag index = some app' ∧ app'.Sound opened := by
      intro index hindex
      obtain ⟨app', happ', hb', hloaded', hdatabase'⟩ := hb.moveTag hindex
      exact ⟨app', happ', by rw [hloaded', hdatabase']; exact h.loaded, fun _ => ⟨ext, hmem, hb'⟩⟩
    cases pressed with
    | tab => exact ⟨_, rfl, hframe hb.fits⟩
    | left => exact ⟨_, rfl, hframe hb.fits⟩
    | right => exact ⟨_, rfl, hframe hb.fits⟩
    | other => exact ⟨app, rfl, h⟩
    | up =>
        dsimp only
        split
        · exact hcategory (by omega)
        · exact htag (by omega)
        · exact ⟨_, rfl, hframe (hb.fits.press (by decide) .up)⟩
    | down =>
        dsimp only
        split
        · exact hcategory (by omega)
        · exact htag (by omega)
        · exact ⟨_, rfl, hframe (hb.fits.press (by decide) .down)⟩

theorem move_sound (hfull : ∀ database ∈ opened, Full database) (app : OfApp) (m : Move)
    (h : app.Sound opened) (hm : m.OpensFrom opened) :
    ∃ app', app.move m = some app' ∧ app'.Sound opened := by
  cases m with
  | load result => exact ⟨_, rfl, loadDatabase_sound h result⟩
  | loadExt result =>
      refine loadExtDatabase_sound h (fun database hresult => hm database ?_) hfull
      rw [hresult]
      rfl
  | key pressed => exact keyPressed_sound h hfull pressed

theorem trackRows_nonneg (app : OfApp) : 0 ≤ app.trackRows := by
  rw [OfApp.trackRows]
  split <;> decide

theorem OfApp.Sound.drawRows (h : app.Sound opened) (tracks : List TrackId) :
    ∃ rows, app.drawRows tracks = some rows := by
  rw [OfApp.drawRows]
  split
  next hloaded =>
    obtain ⟨database, hdatabase⟩ := Option.isSome_iff_exists.mp (h.loaded hloaded)
    exact ⟨some (tracks.filterMap database.getTrack), by rw [hdatabase]; rfl⟩
  next => exact ⟨none, rfl⟩

/-- A frame of a browsed database shows the tags of the selected category and
the tracks with the selected tag. -/
theorem OfApp.Browses.draw (h : app.Browses ext) (hsound : app.Sound opened) :
    ∃ category tag rows, at? ext.allCategoryIds app.selectedCategoryIndex = some category ∧
      at? (ext.getTagsInCategory category) app.selectedTagIndex = some tag ∧
      app.taggedTracks = ext.findTracksByTag tag ∧
      app.draw = some
        { categories := ext.allCategoryIds.take 20
          category := some category
          tags := (ext.getTagsInCategory category).take 20
          tag := some tag
          tracks := ((ext.findTracksByTag tag).drop app.trackCursor.offset.toNat).take
            app.trackRows.toNat
          rows := rows } := by
  obtain ⟨hext, hids, ⟨category, hcategory, htags⟩, ⟨tag, htag, htracks⟩, hfits⟩ := h
  obtain ⟨rows, hrows⟩ := hsound.drawRows
    ((app.taggedTracks.drop app.trackCursor.offset.toNat).take app.trackRows.toNat)
  refine ⟨category, tag, rows, hcategory, htags ▸ htag, htracks, ?_⟩
  rw [htracks] at hrows
  rw [OfApp.draw, hids, readBelow_of_at? hcategory, readBelow_of_at? htag,
    readWindow_eq _ (trackRows_nonneg app) hfits.offset_nonneg]
  simp [hrows, htags, htracks]

/-! ### The runs that go wrong -/

end TagBrowser

end DjLink
