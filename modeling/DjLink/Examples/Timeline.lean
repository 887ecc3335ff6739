import Mathlib.Data.List.DropRight
import DjLink.Handover
import DjLink.Library.BoundedLog

/-!
The client of `example-timeline`: two histories of the beats, of different
lengths, and a colour for every device that has beaten. The colours beyond
those of the first four devices are worked out when a device first beats and
kept in a map. The zoom of the display is left out.

`ofColor::setHsb` is a function of openFrameworks and enters as a parameter.
-/

namespace DjLink

open LastWrite BoundedLog

namespace Timeline

def MAX_HISTORY : ℕ := 500

def MAX_BPM_SAMPLES : ℕ := 300

structure OfColor where
  r : ℕ
  g : ℕ
  b : ℕ
  deriving DecidableEq

structure BeatEvent where
  timestamp : ℕ
  deviceNumber : Int
  deviceName : String
  bpm : Float
  beatWithinBar : Int
  color : OfColor

structure BpmSample where
  timestamp : ℕ
  bpm : Float

/-- The colours that `setup()` puts into the map. -/
def predefinedColors : IntMap OfColor :=
  ((((∅ : IntMap OfColor).insert 1 ⟨255, 100, 100⟩).insert 2 ⟨100, 255, 100⟩).insert 3
    ⟨100, 100, 255⟩).insert 4 ⟨255, 255, 100⟩

structure OfApp where
  beatHistory : List BeatEvent := []
  bpmHistory : List BpmSample := []
  showBpmGraph : Bool := true
  showBeatMarkers : Bool := true
  deviceColors : IntMap OfColor := predefinedColors

variable (setHsb : Int → Int → Int → OfColor)

namespace OfApp

def getDeviceColor (self : OfApp) (deviceNumber : Int) : OfColor × OfApp :=
  match self.deviceColors[deviceNumber]? with
  | some color => (color, self)
  | none =>
      let color := setHsb ((deviceNumber * 60).tmod 255) 200 255
      -- `(deviceNumber * 60) % 255` has the sign of the number
      (color, { self with deviceColors := self.deviceColors.insert deviceNumber color })

def onBeat (self : OfApp) (now : ℕ) (beat : OfxBeatLinkBeat) : OfApp :=
  let (color, self) := self.getDeviceColor setHsb beat.deviceNumber
  let event : BeatEvent :=
    { timestamp := now
      deviceNumber := beat.deviceNumber
      deviceName := beat.deviceName
      bpm := beat.bpm
      beatWithinBar := beat.beatWithinBar
      color := color }
  { self with
    beatHistory := pushBack MAX_HISTORY self.beatHistory event
    bpmHistory := pushBack MAX_BPM_SAMPLES self.bpmHistory { timestamp := now, bpm := beat.bpm } }

/-- The handlers of found and lost only write to the console. -/
def handle (self : OfApp) (timedEvent : ℕ × Event) : OfApp :=
  match timedEvent.2 with
  | .beat beat => self.onBeat setHsb timedEvent.1 beat
  | _ => self

def keyPressed (self : OfApp) (key : Char) : OfApp :=
  if key = 'b' || key = 'B' then { self with showBpmGraph := !self.showBpmGraph }
  else if key = 'm' || key = 'M' then { self with showBeatMarkers := !self.showBeatMarkers }
  else if key = 'c' || key = 'C' then { self with beatHistory := [], bpmHistory := [] }
  else self

end OfApp

/-! ### The colour of a device -/

/-- The colour of a device, without the map. -/
def colorOf (deviceNumber : Int) : OfColor :=
  (predefinedColors[deviceNumber]?).getD (setHsb ((deviceNumber * 60).tmod 255) 200 255)

/-- The map says nothing else than `colorOf`, and knows the predefined colours. -/
structure OfApp.Faithful (app : OfApp) : Prop where
  known : ∀ (d : Int) color, app.deviceColors[d]? = some color → color = colorOf setHsb d
  predefined : ∀ d : Int, app.deviceColors[d]? = none → predefinedColors[d]? = none

theorem faithful_initial : ({} : OfApp).Faithful setHsb where
  known d color h := by
    have hpredefined : predefinedColors[d]? = some color := h
    rw [colorOf, hpredefined, Option.getD_some]
  predefined d h := h

theorem getDeviceColor_fst {self : OfApp} (h : self.Faithful setHsb) (d : Int) :
    (self.getDeviceColor setHsb d).1 = colorOf setHsb d := by
  rw [OfApp.getDeviceColor]
  split
  next color hcolor => exact h.known d color hcolor
  next hnone => rw [colorOf, h.predefined d hnone, Option.getD_none]

theorem getDeviceColor_snd {self : OfApp} (h : self.Faithful setHsb) (d : Int) :
    (self.getDeviceColor setHsb d).2.Faithful setHsb ∧
      (self.getDeviceColor setHsb d).2.beatHistory = self.beatHistory ∧
      (self.getDeviceColor setHsb d).2.bpmHistory = self.bpmHistory := by
  have hcolor := getDeviceColor_fst setHsb h d
  rw [OfApp.getDeviceColor] at hcolor ⊢
  split
  next color hknown => exact ⟨h, rfl, rfl⟩
  next hnone =>
    simp only [hnone] at hcolor
    refine ⟨⟨fun d' color hget => ?_, fun d' hget => ?_⟩, rfl, rfl⟩
    · rw [IntMap.getElem?_insert_eq] at hget
      split at hget
      next heq =>
        subst heq
        rw [← Option.some.inj hget, hcolor]
      next hne => exact h.known d' color hget
    · rw [IntMap.getElem?_insert_eq] at hget
      split at hget
      next heq => cases hget
      next hne => exact h.predefined d' hget

/-! ### Whole runs -/

/-- An event is handled at a time, or a key is pressed. -/
inductive Move where
  | event (now : ℕ) (e : Event)
  | key (ch : Char)

def OfApp.move (self : OfApp) : Move → OfApp
  | .event now e => self.handle setHsb (now, e)
  | .key ch => self.keyPressed ch

def OfApp.run (self : OfApp) (moves : List Move) : OfApp := moves.foldl (OfApp.move setHsb) self

/-- The entry that a beat makes in the history. -/
def Move.beatEvent? : Move → Option BeatEvent
  | .event now (.beat beat) => some
      { timestamp := now
        deviceNumber := beat.deviceNumber
        deviceName := beat.deviceName
        bpm := beat.bpm
        beatWithinBar := beat.beatWithinBar
        color := colorOf setHsb beat.deviceNumber }
  | _ => none

def BeatEvent.sample (event : BeatEvent) : BpmSample :=
  { timestamp := event.timestamp, bpm := event.bpm }

/-- The key `c` clears the histories. -/
def Move.clears : Move → Bool
  | .key ch => ch = 'c' || ch = 'C'
  | .event _ _ => false

/-- The beats since the histories were last cleared. -/
def beatsOf (moves : List Move) : List BeatEvent :=
  (moves.rtakeWhile fun m => !m.clears).filterMap (Move.beatEvent? setHsb)

theorem move_cases (self : OfApp) (h : self.Faithful setHsb) (m : Move) :
    (self.move setHsb m).Faithful setHsb ∧
      ((m.clears = true ∧ (self.move setHsb m).beatHistory = [] ∧
          (self.move setHsb m).bpmHistory = []) ∨
        (m.clears = false ∧
          (self.move setHsb m).beatHistory =
            (m.beatEvent? setHsb).toList.foldl (pushBack MAX_HISTORY) self.beatHistory ∧
          (self.move setHsb m).bpmHistory =
            ((m.beatEvent? setHsb).toList.map BeatEvent.sample).foldl
              (pushBack MAX_BPM_SAMPLES) self.bpmHistory)) := by
  cases m with
  | key ch =>
      have hframe : (self.keyPressed ch).deviceColors = self.deviceColors ∧
          (((Move.key ch).clears = true ∧ (self.keyPressed ch).beatHistory = [] ∧
            (self.keyPressed ch).bpmHistory = []) ∨
          ((Move.key ch).clears = false ∧ (self.keyPressed ch).beatHistory = self.beatHistory ∧
            (self.keyPressed ch).bpmHistory = self.bpmHistory)) := by
        by_cases hc : ch = 'c' ∨ ch = 'C'
        · rcases hc with rfl | rfl <;> exact ⟨rfl, .inl ⟨rfl, rfl, rfl⟩⟩
        · have hclears : (Move.key ch).clears = false := by simpa [Move.clears] using hc
          have hnot : ¬ (decide (ch = 'c') || decide (ch = 'C')) = true := by simpa using hc
          rw [OfApp.keyPressed, if_neg hnot]
          split
          · exact ⟨rfl, .inr ⟨hclears, rfl, rfl⟩⟩
          · split <;> exact ⟨rfl, .inr ⟨hclears, rfl, rfl⟩⟩
      refine ⟨⟨fun d color hget => h.known d color ?_, fun d hget => h.predefined d ?_⟩, hframe.2⟩
      · rw [← hframe.1]
        exact hget
      · rw [← hframe.1]
        exact hget
  | event now e =>
      cases e with
      | beat beat =>
          obtain ⟨hfaithful, hbeats, hbpms⟩ := getDeviceColor_snd setHsb h beat.deviceNumber
          have hcolor := getDeviceColor_fst setHsb h beat.deviceNumber
          refine ⟨⟨hfaithful.known, hfaithful.predefined⟩, .inr ⟨rfl, ?_, ?_⟩⟩
          · simp [OfApp.move, OfApp.handle, OfApp.onBeat, Move.beatEvent?, hbeats, hcolor]
          · simp [OfApp.move, OfApp.handle, OfApp.onBeat, Move.beatEvent?, hbpms, BeatEvent.sample]
      | _ => exact ⟨h, .inr ⟨rfl, rfl, rfl⟩⟩

theorem beatsOf_concat_of_clears {moves : List Move} {m : Move} (h : m.clears = true) :
    beatsOf setHsb (moves ++ [m]) = [] := by
  rw [beatsOf, List.rtakeWhile_concat_neg _ _ _ (by simp [h])]
  rfl

theorem beatsOf_concat {moves : List Move} {m : Move} (h : m.clears = false) :
    beatsOf setHsb (moves ++ [m]) = beatsOf setHsb moves ++ (m.beatEvent? setHsb).toList := by
  rw [beatsOf, List.rtakeWhile_concat_pos _ _ _ (by simp [h]), List.filterMap_append, beatsOf]
  cases h : m.beatEvent? setHsb <;> simp [h]

theorem color_of_mem_beatsOf {moves : List Move} {event : BeatEvent}
    (h : event ∈ beatsOf setHsb moves) : event.color = colorOf setHsb event.deviceNumber := by
  obtain ⟨m, -, hm⟩ := List.mem_filterMap.mp h
  cases m with
  | key ch => cases hm
  | event now e =>
      cases e with
      | beat beat =>
          obtain rfl := Option.some.inj hm
          rfl
      | _ => cases hm

/-- **What the timeline holds.** After any sequence of beats and keys the two
histories are the last 500 and the last 300 of the same beats, those since the
last clearing, in order; and every beat carries the colour of its device, the
same through the whole run. -/
theorem histories_run (moves : List Move) :
    (({} : OfApp).run setHsb moves).beatHistory = (beatsOf setHsb moves).rtake MAX_HISTORY ∧
      (({} : OfApp).run setHsb moves).bpmHistory =
        ((beatsOf setHsb moves).map BeatEvent.sample).rtake MAX_BPM_SAMPLES ∧
      ∀ event ∈ (({} : OfApp).run setHsb moves).beatHistory,
        event.color = colorOf setHsb event.deviceNumber := by
  have hrun : (({} : OfApp).run setHsb moves).Faithful setHsb ∧
      (({} : OfApp).run setHsb moves).beatHistory = (beatsOf setHsb moves).rtake MAX_HISTORY ∧
      (({} : OfApp).run setHsb moves).bpmHistory =
        ((beatsOf setHsb moves).map BeatEvent.sample).rtake MAX_BPM_SAMPLES := by
    -- the colours are faithful along the way, which the entries of a beat need
    induction moves using List.reverseRecOn with
    | nil =>
        exact ⟨faithful_initial setHsb, (List.rtake_nil MAX_HISTORY).symm,
          (List.rtake_nil MAX_BPM_SAMPLES).symm⟩
    | append_singleton moves m ih =>
        obtain ⟨hfaithful, hbeats, hbpms⟩ := ih
        have hstep : ({} : OfApp).run setHsb (moves ++ [m]) =
            (({} : OfApp).run setHsb moves).move setHsb m := by
          rw [OfApp.run, OfApp.run, List.foldl_concat]
        obtain ⟨hkeeps, ⟨hclears, hbeats', hbpms'⟩ | ⟨hclears, hbeats', hbpms'⟩⟩ :=
          move_cases setHsb _ hfaithful m
        · rw [hstep, beatsOf_concat_of_clears setHsb hclears, hbeats', hbpms', List.map_nil,
            List.rtake_nil, List.rtake_nil]
          exact ⟨hkeeps, rfl, rfl⟩
        · rw [hstep, beatsOf_concat setHsb hclears, hbeats', hbpms', hbeats, hbpms,
            List.map_append]
          refine ⟨hkeeps, ?_, ?_⟩
          · rw [foldl_pushBack MAX_HISTORY (length_rtake_le _ _)]
            exact rtake_append_rtake _ _ _
          · rw [foldl_pushBack MAX_BPM_SAMPLES (length_rtake_le _ _)]
            exact rtake_append_rtake _ _ _
  refine ⟨hrun.2.1, hrun.2.2, fun event hevent => ?_⟩
  rw [hrun.2.1] at hevent
  exact color_of_mem_beatsOf setHsb (List.mem_of_mem_drop hevent)

end Timeline

end DjLink
