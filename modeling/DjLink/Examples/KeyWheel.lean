import Mathlib.Data.Set.Basic
import DjLink.Examples.CrateDigger
import DjLink.Library.PartialRun
import DjLink.Library.Sorting

/-!
The wheel of `example-key-wheel`: the keys of a database with their tracks, in
the order and at the places of the Camelot wheel, and a selected key. The
geometry is left out: the pointer is over a segment of one of the two rings or
over none. Colours are left out as well.

`std::sort` does not say how keys at one place are ordered, so that sorting is
any function that sorts. The selection survives the loading of another database,
and is then read from a list of another length.
-/

namespace DjLink

open CrateDigger ListCursor PartialRun Sorting

namespace KeyWheel

def visibleRows : Int := 20

structure KeyData where
  id : KeyId
  name : String
  camelotNumber : Int
  isMinor : Bool
  tracks : List TrackId

/-- The key has this number and this mode. -/
def KeyData.isAt (number : Int) (isMinor : Bool) (key : KeyData) : Bool :=
  key.camelotNumber == number && key.isMinor == isMinor

/-- A line of `camelotMapping`. -/
structure Camelot where
  code : String
  number : Int
  isMinor : Bool
  deriving DecidableEq

def camelotMapping : List Camelot :=
  [⟨"Abm", 1, true⟩, ⟨"Ebm", 2, true⟩, ⟨"Bbm", 3, true⟩, ⟨"Fm", 4, true⟩,
   ⟨"Cm", 5, true⟩, ⟨"Gm", 6, true⟩, ⟨"Dm", 7, true⟩, ⟨"Am", 8, true⟩,
   ⟨"Em", 9, true⟩, ⟨"Bm", 10, true⟩, ⟨"F#m", 11, true⟩, ⟨"Dbm", 12, true⟩,
   ⟨"B", 1, false⟩, ⟨"Gb", 2, false⟩, ⟨"Db", 3, false⟩, ⟨"Ab", 4, false⟩,
   ⟨"Eb", 5, false⟩, ⟨"Bb", 6, false⟩, ⟨"F", 7, false⟩, ⟨"C", 8, false⟩,
   ⟨"G", 9, false⟩, ⟨"D", 10, false⟩, ⟨"A", 11, false⟩, ⟨"E", 12, false⟩]

/-- `s.find(part) != npos`. -/
def contains (s part : String) : Bool := s.toList.tails.any part.toList.isPrefixOf

/-- A name matches a code that it contains or is contained in. -/
def Camelot.fits (camelot : Camelot) (keyName : String) : Bool :=
  contains keyName camelot.code || contains camelot.code keyName

/-- The number and the mode of a name: those of the first line that it matches. -/
def place (keyName : String) : Int × Bool :=
  match camelotMapping.find? (·.fits keyName) with
  | some camelot => (camelot.number, camelot.isMinor)
  | none => (0, false)

def tracksWithKey (database : Database) (id : KeyId) : List TrackId :=
  database.allTrackIds.filter fun trackId => (database.getTrack trackId).any (·.keyId == id)

/-- The keys before they are sorted. -/
def keyRows (database : Database) : List KeyData :=
  database.allKeyIds.filterMap fun id => (database.getKey id).map fun name =>
    { id := id
      name := name
      camelotNumber := (place name).1
      isMinor := (place name).2
      tracks := tracksWithKey database id }

/-- The order of the keys. -/
def lt (a b : KeyData) : Bool :=
  if a.isMinor != b.isMinor then a.isMinor else a.camelotNumber < b.camelotNumber

structure OfApp where
  database : Option Database := none
  databaseLoaded : Bool := false
  errorMessage : String := ""
  keys : List KeyData := []
  hoveredKeyIndex : Int := -1
  selectedKeyIndex : Int := -1
  /-- `selectedTrackIndex` and `trackScrollOffset`. -/
  trackCursor : Cursor := {}

inductive Pressed where
  | up
  | down
  | left
  | right
  | escape
  | other

/-- Where the pointer is: over a segment of the outer or the inner ring, or
next to the wheel. -/
structure Position where
  segment : ℕ
  isInner : Bool

inductive Move where
  | load (result : Except String Database)
  | key (pressed : Pressed)
  | mouseMoved (position : Option Position)
  | mousePressed (position : Option Position)

namespace OfApp

variable (sort : List KeyData → List KeyData)

def loadDatabase (self : OfApp) (result : Except String Database) : OfApp :=
  let self := { self with errorMessage := "" }
  match result with
  | .error message => { self with errorMessage := message }
  | .ok database =>
      { self with
        database := some database
        databaseLoaded := true
        -- `selectedKeyIndex` and `trackCursor` are kept
        keys := sort (keyRows database) }

def getKeyIndexAtPosition (self : OfApp) (position : Option Position) : Int :=
  match position with
  | none => -1
  | some position =>
      match self.keys.findIdx? (KeyData.isAt (position.segment + 1) position.isInner) with
      | some i => i
      | none => -1

def select (self : OfApp) (index : Int) : OfApp :=
  { self with selectedKeyIndex := index, trackCursor := {} }

def keyPressed (self : OfApp) (pressed : Pressed) : Option OfApp :=
  if !self.databaseLoaded then some self
  else
    match pressed with
    | .up =>
        some (if self.selectedKeyIndex ≥ 0 then { self with trackCursor := self.trackCursor.up }
          else self)
    | .down =>
        if self.selectedKeyIndex ≥ 0 then do
          let key ← at? self.keys self.selectedKeyIndex
          return { self with
            trackCursor := self.trackCursor.down visibleRows key.tracks.length }
        else some self
    | .left =>
        some (if self.selectedKeyIndex > 0 then self.select (self.selectedKeyIndex - 1) else self)
    | .right =>
        some (if self.selectedKeyIndex < (self.keys.length : Int) - 1 then
          self.select (self.selectedKeyIndex + 1) else self)
    | .escape => some { self with selectedKeyIndex := -1 }
    | .other => some self

def mouseMoved (self : OfApp) (position : Option Position) : OfApp :=
  { self with hoveredKeyIndex := self.getKeyIndexAtPosition position }

def mousePressed (self : OfApp) (position : Option Position) : OfApp :=
  let clickedKey := self.getKeyIndexAtPosition position
  if clickedKey ≥ 0 then self.select clickedKey else self

def move (self : OfApp) : Move → Option OfApp
  | .load result => some (self.loadDatabase sort result)
  | .key pressed => self.keyPressed pressed
  | .mouseMoved position => some (self.mouseMoved position)
  | .mousePressed position => some (self.mousePressed position)

end OfApp

/-- The places of the keys that mix well with a key: its own, the same number in
the other mode, and the next and the last number. -/
def KeyData.compatible (kd : KeyData) : List (Int × Bool) :=
  [(kd.camelotNumber, kd.isMinor), (kd.camelotNumber, !kd.isMinor),
   (kd.camelotNumber % 12 + 1, kd.isMinor), ((kd.camelotNumber - 2 + 12) % 12 + 1, kd.isMinor)]

/-- What a frame shows next to the wheel when a key is selected. -/
structure View where
  selected : KeyData
  compatible : List KeyData
  tracks : List TrackRow

namespace OfApp

/-- `drawCompatibleKeys` and `drawTrackList`. -/
def drawSelected (self : OfApp) : Option (Option View) :=
  if self.selectedKeyIndex < 0 then some none
  else do
    let kd ← at? self.keys self.selectedKeyIndex
    let ids ← readWindow visibleRows kd.tracks self.trackCursor.offset
    let database ← self.database
    return some {
      selected := kd
      compatible := kd.compatible.filterMap fun comp =>
        self.keys.find? (KeyData.isAt comp.1 comp.2)
      tracks := ids.filterMap database.getTrack }

end OfApp

/-- The database that a move opens. -/
def Move.opens : Move → Option Database
  | .load (.ok database) => some database
  | .load (.error _) => none
  | .key _ => none
  | .mouseMoved _ => none
  | .mousePressed _ => none

/-- What a move opens is one of the databases that may be opened. -/
def Move.OpensFrom (opened : Set Database) (m : Move) : Prop :=
  ∀ database, m.opens = some database → database ∈ opened

variable {sort : List KeyData → List KeyData} {app : OfApp} {opened : Set Database}

/-! ### The selection -/

/-- What is clicked is a key. -/
theorem getKeyIndexAtPosition_lt (app : OfApp) (position : Option Position) :
    -1 ≤ app.getKeyIndexAtPosition position ∧
      (0 ≤ app.getKeyIndexAtPosition position →
        app.getKeyIndexAtPosition position < app.keys.length) := by
  cases position with
  | none => simp [OfApp.getKeyIndexAtPosition]
  | some position =>
      rw [OfApp.getKeyIndexAtPosition]
      split
      next i hi =>
        obtain ⟨hlt, -⟩ := List.findIdx?_eq_some_iff_getElem.mp hi
        omega
      next => simp

/-- The selection is a key, if there is one, and every database that is loaded
has the same number of keys. -/
structure OfApp.Sound (app : OfApp) (opened : Set Database) : Prop where
  loaded : app.databaseLoaded = true → ∃ database ∈ opened, app.database = some database ∧
    app.keys.length = (keyRows database).length
  unloaded : app.databaseLoaded = false → app.selectedKeyIndex = -1 ∧ app.keys = []
  selected_lt : 0 ≤ app.selectedKeyIndex → app.selectedKeyIndex < app.keys.length
  offset_nonneg : 0 ≤ app.trackCursor.offset

theorem sound_initial (opened : Set Database) : ({} : OfApp).Sound opened where
  loaded h := absurd h Bool.false_ne_true
  unloaded _ := ⟨rfl, rfl⟩
  selected_lt h := absurd h (by decide)
  offset_nonneg := Int.le_refl 0

theorem OfApp.Sound.loadDatabase (h : app.Sound opened) (hsort : SortsBy lt sort)
    (hsame : ∀ a ∈ opened, ∀ b ∈ opened, (keyRows a).length = (keyRows b).length)
    {result : Except String Database}
    (hresult : ∀ database, result = .ok database → database ∈ opened) :
    (app.loadDatabase sort result).Sound opened := by
  cases result with
  | error message => exact ⟨h.loaded, h.unloaded, h.selected_lt, h.offset_nonneg⟩
  | ok database =>
      have hmem := hresult database rfl
      refine ⟨fun _ => ⟨database, hmem, rfl, hsort.length_eq (keyRows database)⟩,
        fun hfalse => absurd hfalse.symm Bool.false_ne_true, fun hselected => ?_, h.offset_nonneg⟩
      -- the old selection has to be in range of the new keys
      show app.selectedKeyIndex < (sort (keyRows database)).length
      replace hselected : 0 ≤ app.selectedKeyIndex := hselected
      rw [hsort.length_eq]
      cases hloaded : app.databaseLoaded with
      | false =>
          have hnone := (h.unloaded hloaded).1
          omega
      | true =>
          obtain ⟨last, hlast, -, hlength⟩ := h.loaded hloaded
          have hlt := h.selected_lt hselected
          rw [hlength, hsame last hlast database hmem] at hlt
          exact hlt

theorem OfApp.Sound.select (h : app.Sound opened) (hloaded : app.databaseLoaded = true)
    {index : Int} (hindex : 0 ≤ index → index < app.keys.length) :
    (app.select index).Sound opened :=
  ⟨h.loaded, fun hunloaded => absurd (hloaded.symm.trans hunloaded) (by decide), hindex,
    Int.le_refl 0⟩

theorem OfApp.Sound.withCursor (h : app.Sound opened) {cursor : Cursor}
    (hcursor : 0 ≤ cursor.offset) : { app with trackCursor := cursor }.Sound opened :=
  ⟨h.loaded, h.unloaded, h.selected_lt, hcursor⟩

theorem up_offset_nonneg {cursor : Cursor} (h : 0 ≤ cursor.offset) : 0 ≤ cursor.up.offset := by
  simp only [Cursor.up]
  omega

theorem down_offset_nonneg {cursor : Cursor} (h : 0 ≤ cursor.offset) (size : Int) :
    0 ≤ (cursor.down visibleRows size).offset := by
  simp only [Cursor.down, visibleRows]
  omega

theorem OfApp.Sound.keyPressed (h : app.Sound opened) (pressed : Pressed) :
    ∃ app', app.keyPressed pressed = some app' ∧ app'.Sound opened := by
  rw [OfApp.keyPressed.eq_def]
  split
  next => exact ⟨app, rfl, h⟩
  next hloaded =>
    have hloaded : app.databaseLoaded = true := by simpa using hloaded
    have hlt := h.selected_lt
    cases pressed with
    | up =>
        refine ⟨_, rfl, ?_⟩
        split
        · exact h.withCursor (up_offset_nonneg h.offset_nonneg)
        · exact h
    | down =>
        dsimp only
        split
        next hselected =>
          obtain ⟨kd, hkd⟩ := Option.isSome_iff_exists.mp
            ((at?_isSome_iff app.keys app.selectedKeyIndex).mpr ⟨hselected, hlt hselected⟩)
          exact ⟨_, by rw [hkd]; rfl, h.withCursor (down_offset_nonneg h.offset_nonneg _)⟩
        next => exact ⟨app, rfl, h⟩
    | left =>
        refine ⟨_, rfl, ?_⟩
        split
        · exact h.select hloaded fun _ => by omega
        · exact h
    | right =>
        refine ⟨_, rfl, ?_⟩
        split
        · exact h.select hloaded fun _ => by omega
        · exact h
    | escape =>
        exact ⟨_, rfl, h.loaded, fun hunloaded => ⟨rfl, (h.unloaded hunloaded).2⟩,
          fun hselected => absurd hselected (by simp), h.offset_nonneg⟩
    | other => exact ⟨app, rfl, h⟩

/-- With no keys there is nothing to click. -/
theorem OfApp.Sound.mousePressed (h : app.Sound opened) (position : Option Position) :
    (app.mousePressed position).Sound opened := by
  rw [OfApp.mousePressed]
  split
  next hclicked =>
    obtain ⟨-, hlt⟩ := getKeyIndexAtPosition_lt app position
    cases hloaded : app.databaseLoaded with
    | false =>
        have hnone := (h.unloaded hloaded).2
        have hlt := hlt hclicked
        rw [hnone, List.length_nil] at hlt
        omega
    | true => exact h.select hloaded hlt
  next => exact h

theorem OfApp.Sound.move (hsort : SortsBy lt sort)
    (hsame : ∀ a ∈ opened, ∀ b ∈ opened, (keyRows a).length = (keyRows b).length) (app : OfApp)
    (m : Move) (h : app.Sound opened) (hm : m.OpensFrom opened) :
    ∃ app', app.move sort m = some app' ∧ app'.Sound opened := by
  cases m with
  | load result =>
      refine ⟨_, rfl, h.loadDatabase hsort hsame fun database hresult => hm database ?_⟩
      rw [hresult]
      rfl
  | key pressed => exact h.keyPressed pressed
  | mouseMoved position =>
      exact ⟨_, rfl, h.loaded, h.unloaded, h.selected_lt, h.offset_nonneg⟩
  | mousePressed position => exact ⟨_, rfl, h.mousePressed position⟩

theorem OfApp.Sound.drawSelected (h : app.Sound opened) : ∃ view, app.drawSelected = some view := by
  rw [OfApp.drawSelected]
  split
  next => exact ⟨none, rfl⟩
  next hselected =>
    have hselected : 0 ≤ app.selectedKeyIndex := by omega
    obtain ⟨kd, hkd⟩ := Option.isSome_iff_exists.mp
      ((at?_isSome_iff app.keys app.selectedKeyIndex).mpr ⟨hselected, h.selected_lt hselected⟩)
    obtain ⟨database, -, hdatabase, -⟩ : ∃ database ∈ opened, app.database = some database ∧
        app.keys.length = (keyRows database).length := by
      refine h.loaded (Bool.of_not_eq_false fun hunloaded => ?_)
      have hnone := (h.unloaded hunloaded).1
      omega
    have hwindow := readWindow_eq kd.tracks (show 0 ≤ visibleRows by decide) h.offset_nonneg
    rw [hkd, Option.bind_eq_bind, Option.bind_some, hwindow, hdatabase]
    exact ⟨_, rfl⟩

/-- To the right every key of a database is reached. -/
theorem exists_atKey (hsort : SortsBy lt sort) (database : Database) {n : ℕ}
    (hn : n ≤ (keyRows database).length) :
    ∃ app, run (OfApp.move sort) {} (.load (.ok database) :: List.replicate n (.key .right)) =
        some app ∧ app.databaseLoaded = true ∧ app.keys = sort (keyRows database) ∧
        app.selectedKeyIndex = (n : Int) - 1 := by
  induction n with
  | zero => exact ⟨_, rfl, rfl, rfl, rfl⟩
  | succ n ih =>
      obtain ⟨app, happ, hloaded, hkeys, hindex⟩ := ih (by omega)
      have hlt : app.selectedKeyIndex < (app.keys.length : Int) - 1 := by
        rw [hkeys, hsort.length_eq]
        omega
      refine ⟨app.select (app.selectedKeyIndex + 1), ?_, hloaded, hkeys, ?_⟩
      · rw [List.replicate_succ', ← List.cons_append, run_append, happ, Option.bind_some, run_cons]
        simp [OfApp.move, OfApp.keyPressed, hloaded, hlt]
      · simp only [OfApp.select, hindex]
        omega

/-- **Changing databases.** Whatever is opened, pressed and clicked, the selected
key is read from the list of keys, and every frame can be drawn; and that is so
exactly if all databases that may be opened have the same number of keys. -/
theorem wheel_drawn_iff (sort : List KeyData → List KeyData) (hsort : SortsBy lt sort)
    (opened : Set Database) :
    (∀ moves : List Move, (∀ m ∈ moves, m.OpensFrom opened) →
      ∃ app view, run (OfApp.move sort) {} moves = some app ∧ app.drawSelected = some view) ↔
      ∀ a ∈ opened, ∀ b ∈ opened, (keyRows a).length = (keyRows b).length := by
  constructor
  · intro hruns
    have hle : ∀ a ∈ opened, ∀ b ∈ opened, (keyRows a).length ≤ (keyRows b).length := by
      intro a ha b hb
      by_contra hlt
      -- the last key of `a` is selected, and then the shorter list of `b` is loaded
      obtain ⟨app, happ, -, -, hindex⟩ := exists_atKey hsort a (Nat.le_refl _)
      have hopens : ∀ m ∈ (Move.load (.ok a) ::
          List.replicate (keyRows a).length (.key .right)) ++ [.load (.ok b)],
          m.OpensFrom opened := by
        intro m hm database hdatabase
        obtain rfl | ⟨-, rfl⟩ | rfl : m = .load (.ok a) ∨ ¬ keyRows a = [] ∧ m = .key .right ∨
            m = .load (.ok b) := by
          simpa [List.mem_replicate] using hm
        · obtain rfl : a = database := Option.some.inj hdatabase
          exact ha
        · cases hdatabase
        · obtain rfl : b = database := Option.some.inj hdatabase
          exact hb
      obtain ⟨app', view, happ', hview⟩ := hruns _ hopens
      rw [run_append, happ] at happ'
      obtain rfl := Option.some.inj happ'
      have hnone : at? (sort (keyRows b)) app.selectedKeyIndex = none := by
        rw [← Option.not_isSome_iff_eq_none, at?_isSome_iff, hsort.length_eq]
        omega
      have hselected : ¬ app.selectedKeyIndex < 0 := by omega
      simp [OfApp.loadDatabase, OfApp.drawSelected, hselected, hnone] at hview
    exact fun a ha b hb => Nat.le_antisymm (hle a ha b hb) (hle b hb a ha)
  · intro hsame moves hmoves
    obtain ⟨app, happ, hsound⟩ := exists_run (OfApp.Sound.move hsort hsame) (sound_initial opened)
      hmoves
    obtain ⟨view, hview⟩ := hsound.drawSelected
    exact ⟨app, view, happ, hview⟩

theorem sortsBy_lt : SortsBy lt fun keys => keys.mergeSort fun a b => !lt b a := by
  refine sortsBy_mergeSort (fun a b => ?_) (fun a b c => ?_)
  · cases ha : a.isMinor <;> cases hb : b.isMinor <;> simp [lt, ha, hb] <;> omega
  · cases ha : a.isMinor <;> cases hb : b.isMinor <;> cases hc : c.isMinor <;>
      simp [lt, ha, hb, hc] <;> omega

/-- After a database with one key another one with one key can be loaded, and
not one without keys. -/
theorem wheel_drawn_of_two_databases :
    let sort : List KeyData → List KeyData := fun keys => keys.mergeSort fun a b => !lt b a
    let one : Database := { allKeyIds := [1], getKey := fun _ => some "Am" }
    let other : Database := { allKeyIds := [2, 3],
                              getKey := fun id => if id = 2 then some "C" else none }
    (∃ app view, run (OfApp.move sort) {}
        [.load (.ok one), .key .right, .load (.ok other), .key .down] = some app ∧
        app.drawSelected = some view) ∧
      ¬ ∀ moves : List Move, (∀ m ∈ moves, m.OpensFrom {one, {}}) →
        ∃ app view, run (OfApp.move sort) {} moves = some app ∧
          app.drawSelected = some view := by
  intro sort one other
  have hone : (keyRows one).length = 1 := rfl
  have hother : (keyRows other).length = 1 := rfl
  constructor
  · refine (wheel_drawn_iff sort sortsBy_lt {one, other}).mpr ?_ _ ?_
    · rintro a (rfl | rfl) b (rfl | rfl) <;> simp [hone, hother]
    · intro m hm database hdatabase
      simp only [List.mem_cons, List.not_mem_nil, or_false] at hm
      obtain rfl | rfl | rfl | rfl := hm <;> simp_all [Move.opens]
  · intro hruns
    have hsame := (wheel_drawn_iff sort sortsBy_lt {one, {}}).mp hruns one (.inl rfl) {} (.inr rfl)
    rw [hone] at hsame
    cases hsame

/-! ### The keys on the wheel -/

/-- The place of a name is that of the first line that it matches. -/
theorem place_eq (keyName : String) :
    (∃ before camelot after, camelotMapping = before ++ camelot :: after ∧
        camelot.fits keyName = true ∧ (∀ x ∈ before, x.fits keyName = false) ∧
        place keyName = (camelot.number, camelot.isMinor)) ∨
      (∀ camelot ∈ camelotMapping, camelot.fits keyName = false) ∧ place keyName = (0, false) := by
  rw [place]
  cases hfind : camelotMapping.find? (·.fits keyName) with
  | some camelot =>
      obtain ⟨hfits, before, after, hsplit, hbefore⟩ := List.find?_eq_some_iff_append.mp hfind
      exact .inl ⟨before, camelot, after, hsplit, hfits, by simpa using hbefore, rfl⟩
  | none => exact .inr ⟨by simpa using List.find?_eq_none.mp hfind, rfl⟩

/-- Minor codes are tried first. -/
theorem place_isMinor_iff (keyName : String) :
    (place keyName).2 = true ↔
      ∃ camelot ∈ camelotMapping, camelot.isMinor = true ∧ camelot.fits keyName = true := by
  obtain ⟨minor, major, hsplit, hminor, hmajor⟩ : ∃ minor major, camelotMapping = minor ++ major ∧
      (∀ camelot ∈ minor, camelot.isMinor = true) ∧ ∀ camelot ∈ major, camelot.isMinor = false :=
    ⟨camelotMapping.take 12, camelotMapping.drop 12, by decide, by decide, by decide⟩
  rw [place, hsplit, List.find?_append]
  cases hfind : minor.find? (·.fits keyName) with
  | some camelot =>
      have hmem := List.mem_of_find?_eq_some hfind
      have hfits : camelot.fits keyName = true := by simpa using List.find?_some hfind
      simp only [Option.some_or, hminor camelot hmem, true_iff]
      exact ⟨camelot, List.mem_append_left major hmem, hminor camelot hmem, hfits⟩
  | none =>
      have hnone : ∀ camelot ∈ minor, ¬ camelot.fits keyName = true := by
        simpa using List.find?_eq_none.mp hfind
      have hfalse : ¬ ∃ camelot ∈ minor ++ major, camelot.isMinor = true ∧
          camelot.fits keyName = true := by
        rintro ⟨camelot, hmem, hisMinor, hfits⟩
        obtain hmem | hmem := List.mem_append.mp hmem
        · exact hnone camelot hmem hfits
        · exact absurd ((hmajor camelot hmem).symm.trans hisMinor) Bool.false_ne_true
      refine iff_of_false ?_ hfalse
      rw [Option.none_or]
      cases hother : major.find? (·.fits keyName) with
      | none => simp
      | some camelot => simp [hmajor camelot (List.mem_of_find?_eq_some hother)]

/-- Of the major codes all but one are found inside a minor code. -/
theorem place_code_iff : ∀ camelot ∈ camelotMapping,
    place camelot.code = (camelot.number, camelot.isMinor) ↔
      camelot.isMinor = true ∨ camelot.code = "Gb" := by
  decide

/-- What is loaded is the database whose keys are on the wheel. -/
def OfApp.Shows (sort : List KeyData → List KeyData) (app : OfApp) : Prop :=
  app.databaseLoaded = true →
    ∃ database, app.database = some database ∧ app.keys = sort (keyRows database)

theorem keyPressed_database (app app' : OfApp) (pressed : Pressed)
    (h : app.keyPressed pressed = some app') :
    app'.databaseLoaded = app.databaseLoaded ∧ app'.database = app.database ∧
      app'.keys = app.keys := by
  rw [OfApp.keyPressed.eq_def] at h
  split at h
  · obtain rfl := Option.some.inj h
    exact ⟨rfl, rfl, rfl⟩
  · cases pressed with
    | down =>
        dsimp only at h
        split at h
        · obtain ⟨kd, -, hkd⟩ := Option.bind_eq_some_iff.mp h
          obtain rfl := Option.some.inj hkd
          exact ⟨rfl, rfl, rfl⟩
        · obtain rfl := Option.some.inj h
          exact ⟨rfl, rfl, rfl⟩
    | escape | other =>
        obtain rfl := Option.some.inj h
        exact ⟨rfl, rfl, rfl⟩
    | up | left | right =>
        obtain rfl := Option.some.inj h
        split <;> exact ⟨rfl, rfl, rfl⟩

theorem move_database (app app' : OfApp) (m : Move) (h : app.move sort m = some app')
    (hm : ∀ database, m ≠ .load (.ok database)) :
    app'.databaseLoaded = app.databaseLoaded ∧ app'.database = app.database ∧
      app'.keys = app.keys := by
  cases m with
  | load result =>
      cases result with
      | error message =>
          obtain rfl := Option.some.inj h
          exact ⟨rfl, rfl, rfl⟩
      | ok database => exact absurd rfl (hm database)
  | key pressed => exact keyPressed_database app app' pressed h
  | mouseMoved position =>
      obtain rfl := Option.some.inj h
      exact ⟨rfl, rfl, rfl⟩
  | mousePressed position =>
      obtain rfl := Option.some.inj h
      rw [OfApp.mousePressed]
      split <;> exact ⟨rfl, rfl, rfl⟩

theorem shows_run {moves : List Move} (h : run (OfApp.move sort) {} moves = some app) :
    app.Shows sort := by
  refine run_preserves (I := OfApp.Shows sort) (fun app m app' happ hmove => ?_)
    (fun hloaded => absurd hloaded Bool.false_ne_true) h
  by_cases hm : ∃ database, m = .load (.ok database)
  · obtain ⟨database, rfl⟩ := hm
    obtain rfl := Option.some.inj hmove
    exact fun _ => ⟨database, rfl, rfl⟩
  · obtain ⟨hloaded, hdatabase, hkeys⟩ := move_database app app' m hmove (not_exists.mp hm)
    rw [OfApp.Shows, hloaded, hdatabase, hkeys]
    exact happ

theorem map_id_keyRows (database : Database) :
    (keyRows database).map KeyData.id =
      database.allKeyIds.filter fun id => (database.getKey id).isSome := by
  refine map_filterMap_eq_filter (fun id => ?_) database.allKeyIds
  cases hname : database.getKey id with
  | none => rfl
  | some name => rfl

/-- A key of the list, with its name, its place and its tracks. -/
theorem mem_keyRows {database : Database} {kd : KeyData} (h : kd ∈ keyRows database) :
    database.getKey kd.id = some kd.name ∧ (kd.camelotNumber, kd.isMinor) = place kd.name ∧
      kd.tracks = tracksWithKey database kd.id := by
  obtain ⟨id, -, hid⟩ := List.mem_filterMap.mp h
  obtain ⟨name, hname, rfl⟩ := Option.map_eq_some_iff.mp hid
  exact ⟨hname, rfl, rfl⟩

theorem mem_tracksWithKey {database : Database} {id : KeyId} {trackId : TrackId} :
    trackId ∈ tracksWithKey database id ↔ trackId ∈ database.allTrackIds ∧
      ∃ track, database.getTrack trackId = some track ∧ track.keyId = id := by
  simp [tracksWithKey, Option.any_eq_true]

theorem lt_eq_false_iff (a b : KeyData) :
    lt b a = false ↔ a.isMinor = true ∧ b.isMinor = false ∨
      a.isMinor = b.isMinor ∧ a.camelotNumber ≤ b.camelotNumber := by
  cases ha : a.isMinor <;> cases hb : b.isMinor <;> simp [lt, ha, hb]

/-- A key is clicked in its segment, unless a key before it has the same. -/
theorem exists_position_iff {i : ℕ} {kd : KeyData} (hkd : app.keys[i]? = some kd) :
    (∃ position, app.getKeyIndexAtPosition position = i) ↔
      0 < kd.camelotNumber ∧
        ∀ j, ∀ other, j < i → app.keys[j]? = some other →
          ¬ (other.camelotNumber = kd.camelotNumber ∧ other.isMinor = kd.isMinor) := by
  obtain ⟨hi, hget⟩ := List.getElem?_eq_some_iff.mp hkd
  constructor
  · rintro ⟨position, hposition⟩
    cases position with
    | none => simp [OfApp.getKeyIndexAtPosition] at hposition
    | some position =>
        rw [OfApp.getKeyIndexAtPosition] at hposition
        split at hposition
        next n hn =>
          obtain rfl : n = i := by omega
          obtain ⟨_, hat, hbefore⟩ := List.findIdx?_eq_some_iff_getElem.mp hn
          simp only [hget, KeyData.isAt, Bool.and_eq_true, beq_iff_eq] at hat
          refine ⟨by omega, fun j other hj hother hsame => ?_⟩
          obtain ⟨hlt, rfl⟩ := List.getElem?_eq_some_iff.mp hother
          refine hbefore j hj ?_
          rw [KeyData.isAt, hsame.1, hsame.2, hat.1, hat.2]
          simp
        next => omega
  · rintro ⟨hpos, hbefore⟩
    refine ⟨some ⟨(kd.camelotNumber - 1).toNat, kd.isMinor⟩, ?_⟩
    have hsegment : ((kd.camelotNumber - 1).toNat : Int) + 1 = kd.camelotNumber := by omega
    have hfind : app.keys.findIdx? (KeyData.isAt kd.camelotNumber kd.isMinor) = some i := by
      refine List.findIdx?_eq_some_iff_getElem.mpr ⟨hi, by simp [hget, KeyData.isAt], ?_⟩
      intro j hj hat
      refine hbefore j app.keys[j] hj (List.getElem?_eq_getElem (by omega)) ?_
      simpa [KeyData.isAt] using hat
    simp only [OfApp.getKeyIndexAtPosition, hsegment, hfind]

/-- **What is on the wheel.** In every run the wheel of a loaded database has
each of its keys once, the minor ones first and by number, with the tracks in
that key. The place of a key is that of the first line of the mapping that its
name matches: on the inner ring exactly if its name and the code of a minor key
lie in one another, and away from its own place for every major code but one. It
can be clicked exactly if it has a number and no key before it is at its place. -/
theorem wheel_run (sort : List KeyData → List KeyData) (hsort : SortsBy lt sort) (moves : List Move)
    (app : OfApp) (happ : run (OfApp.move sort) {} moves = some app)
    (hloaded : app.databaseLoaded = true) :
    ∃ database, app.database = some database ∧
      (app.keys.map KeyData.id).Perm
        (database.allKeyIds.filter fun id => (database.getKey id).isSome) ∧
      (app.keys.Pairwise fun a b => a.isMinor = true ∧ b.isMinor = false ∨
        a.isMinor = b.isMinor ∧ a.camelotNumber ≤ b.camelotNumber) ∧
      ∀ (i : ℕ) (kd : KeyData), app.keys[i]? = some kd →
        database.getKey kd.id = some kd.name ∧
        (∀ trackId, trackId ∈ kd.tracks ↔ trackId ∈ database.allTrackIds ∧
          ∃ track, database.getTrack trackId = some track ∧ track.keyId = kd.id) ∧
        ((∃ before camelot after, camelotMapping = before ++ camelot :: after ∧
            camelot.fits kd.name = true ∧ (∀ x ∈ before, x.fits kd.name = false) ∧
            (kd.camelotNumber, kd.isMinor) = (camelot.number, camelot.isMinor)) ∨
          (∀ camelot ∈ camelotMapping, camelot.fits kd.name = false) ∧
            (kd.camelotNumber, kd.isMinor) = (0, false)) ∧
        (kd.isMinor = true ↔ ∃ camelot ∈ camelotMapping, camelot.isMinor = true ∧
          camelot.fits kd.name = true) ∧
        (∀ camelot ∈ camelotMapping, kd.name = camelot.code →
          ((kd.camelotNumber, kd.isMinor) = (camelot.number, camelot.isMinor) ↔
            camelot.isMinor = true ∨ camelot.code = "Gb")) ∧
        ((∃ position, app.getKeyIndexAtPosition position = i) ↔
          0 < kd.camelotNumber ∧ ∀ j, ∀ other, j < i → app.keys[j]? = some other →
            ¬ (other.camelotNumber = kd.camelotNumber ∧ other.isMinor = kd.isMinor)) := by
  obtain ⟨database, hdatabase, hkeys⟩ := shows_run happ hloaded
  refine ⟨database, hdatabase, ?_, ?_, fun i kd hkd => ?_⟩
  · rw [hkeys, ← map_id_keyRows]
    exact (hsort.perm (keyRows database)).map KeyData.id
  · rw [hkeys]
    exact (hsort.pairwise (keyRows database)).imp fun h => (lt_eq_false_iff _ _).mp h
  · have hmem : kd ∈ keyRows database := by
      rw [← hsort.mem_iff, ← hkeys]
      exact List.mem_of_getElem? hkd
    obtain ⟨hname, hplace, htracks⟩ := mem_keyRows hmem
    refine ⟨hname, fun trackId => htracks ▸ mem_tracksWithKey, ?_, ?_, ?_,
      exists_position_iff hkd⟩
    · rw [hplace]
      exact place_eq kd.name
    · rw [← place_isMinor_iff, ← hplace]
    · intro camelot hcamelot hcode
      rw [hplace, hcode]
      exact place_code_iff camelot hcamelot

/-- C minor and C major are both at 5A, where only the first can be clicked. -/
theorem wheel_run_same_place :
    let sort : List KeyData → List KeyData := fun keys => keys.mergeSort fun a b => !lt b a
    let track (key : KeyId) : TrackRow := { (default : TrackRow) with keyId := key }
    let database : Database :=
      { allKeyIds := [1, 2]
        getKey := fun id => some (if id = 1 then "Cm" else "C")
        allTrackIds := [10, 20, 30]
        getTrack := fun id => if id = 10 then some (track 1) else if id = 20 then some (track 2)
          else none }
    let app : OfApp :=
      { database := some database, databaseLoaded := true, keys := keyRows database }
    run (OfApp.move sort) {} [.load (.ok database)] = some app ∧
      app.keys.map (fun kd => (kd.name, kd.camelotNumber, kd.isMinor, kd.tracks)) =
        [("Cm", 5, true, [10]), ("C", 5, true, [20])] ∧
      (∃ position, app.getKeyIndexAtPosition position = 0) ∧
      ¬ ∃ position, app.getKeyIndexAtPosition position = 1 := by
  intro sort track database app
  have hsorted : sort (keyRows database) = keyRows database :=
    List.mergeSort_of_pairwise (by decide)
  have happ : run (OfApp.move sort) {} [.load (.ok database)] = some app := by
    simp [OfApp.move, OfApp.loadDatabase, hsorted, app]
  obtain ⟨_, -, -, -, hkeys⟩ := wheel_run sort sortsBy_lt _ app happ rfl
  obtain ⟨-, -, -, -, -, hfirst⟩ := hkeys 0 _ rfl
  obtain ⟨-, -, -, -, -, hsecond⟩ := hkeys 1 _ rfl
  refine ⟨happ, by decide, hfirst.mpr ⟨by decide, fun j _ hj => absurd hj (Nat.not_lt_zero j)⟩, ?_⟩
  intro hclicked
  -- the first key is at the place of the second
  exact (hsecond.mp hclicked).2 0 _ Nat.zero_lt_one rfl ⟨by decide, by decide⟩

end KeyWheel

end DjLink
