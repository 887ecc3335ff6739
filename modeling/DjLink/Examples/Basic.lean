import Mathlib.Data.List.DropRight
import DjLink.Handover

/-!
The client of `example-basic`: a list of the devices it has been told about,
which the key `r` replaces by what the library lists, and the last beat of
every device. What it keeps for drawing and the lines of its log are left out.

The map of beats is a second copy of the cache behind `getLatestBeat`, filled
from the events. The two agree after an `update()` unless a beat arrived after
a loss of its device in one frame.
-/

namespace DjLink

open Beatlink LastWrite Buckets

/-- `getCurrentDevices()`, with what the library lists. -/
def getCurrentDevices (current : List DeviceAnnouncement) : List OfxBeatLinkDevice :=
  current.map convertDevice

namespace Basic

structure OfApp where
  devices : List OfxBeatLinkDevice := []
  deviceBeats : IntMap OfxBeatLinkBeat := ∅

namespace OfApp

def onBeat (self : OfApp) (beat : OfxBeatLinkBeat) : OfApp :=
  { self with deviceBeats := self.deviceBeats.insert beat.deviceNumber beat }

def onDeviceFound (self : OfApp) (device : OfxBeatLinkDevice) : OfApp :=
  -- not asked whether the device is listed
  { self with devices := self.devices ++ [device] }

def onDeviceLost (self : OfApp) (device : OfxBeatLinkDevice) : OfApp :=
  { self with
    devices := self.devices.filter fun d => !(d.deviceNumber == device.deviceNumber)
    deviceBeats := self.deviceBeats.erase device.deviceNumber }

/-- The client listens to three of the five events. -/
def handle (self : OfApp) : Event → OfApp
  | .beat beat => self.onBeat beat
  | .deviceFound device => self.onDeviceFound device
  | .deviceLost device => self.onDeviceLost device
  | .deviceUpdate _ => self
  | .masterChanged _ => self

def handleAll (self : OfApp) (events : List Event) : OfApp := events.foldl handle self

/-- `keyPressed`; `current` is what the library lists at that moment. -/
def keyPressed (self : OfApp) (current : List DeviceAnnouncement) (key : Char) : OfApp :=
  if key = 'r' || key = 'R' then { self with devices := getCurrentDevices current }
  else self

end OfApp

/-! ### The map of beats -/

/-- What happens to the list: an event is handled, or a key is pressed while the
library lists `current`. -/
inductive Move where
  | event (e : Event)
  | key (current : List DeviceAnnouncement) (key : Char)

def OfApp.move (self : OfApp) : Move → OfApp
  | .event e => self.handle e
  | .key current key => self.keyPressed current key

def OfApp.moves (self : OfApp) (moves : List Move) : OfApp := moves.foldl OfApp.move self

/-- The entries of `d` in the list, in order. -/
def OfApp.entries (self : OfApp) (d : Int) : List OfxBeatLinkDevice :=
  self.devices.filter fun device => device.deviceNumber = d

/-- The entry that a move adds for `d`. -/
def Move.adds (d : Int) : Move → Option OfxBeatLinkDevice
  | .event (.deviceFound device) => if device.deviceNumber = d then some device else none
  | _ => none

/-- The entries that a move puts in place of those of `d`: none when `d` is
lost, those of the library when `r` is pressed. -/
def Move.replaces (d : Int) : Move → Option (List OfxBeatLinkDevice)
  | .event (.deviceLost device) => if device.deviceNumber = d then some [] else none
  | .key current ch =>
      if ch = 'r' || ch = 'R' then
        some ((getCurrentDevices current).filter fun device => device.deviceNumber = d)
      else none
  | _ => none

theorem entries_move (self : OfApp) (d : Int) (m : Move) :
    (self.move m).entries d =
      (m.replaces d).getD (self.entries d) ++ (m.adds d).toList := by
  cases m with
  | event e =>
      cases e with
      | deviceFound device =>
          by_cases h : device.deviceNumber = d <;>
            simp [OfApp.move, OfApp.handle, OfApp.onDeviceFound, OfApp.entries, Move.adds,
              Move.replaces, h]
      | deviceLost device =>
          by_cases h : device.deviceNumber = d
          · simp [OfApp.move, OfApp.handle, OfApp.onDeviceLost, OfApp.entries, Move.adds,
              Move.replaces, h]
          · have hkeeps (x : OfxBeatLinkDevice) :
                (decide (x.deviceNumber = d) && !(x.deviceNumber == device.deviceNumber)) =
                  decide (x.deviceNumber = d) := by
              by_cases hx : x.deviceNumber = d <;> simp [hx, Ne.symm h]
            simp [OfApp.move, OfApp.handle, OfApp.onDeviceLost, OfApp.entries, Move.adds,
              Move.replaces, h, hkeeps]
      | _ => simp [OfApp.move, OfApp.handle, OfApp.onBeat, OfApp.entries, Move.adds, Move.replaces]
  | key current ch =>
      by_cases h : ch = 'r' ∨ ch = 'R' <;>
        simp [OfApp.move, OfApp.keyPressed, OfApp.entries, Move.adds, Move.replaces, h]

/-- No move both replaces the entries of a device and adds one. -/
theorem Move.adds_of_replaces {d : Int} {m : Move} (h : m.replaces d ≠ none) :
    m.adds d = none := by
  cases m with
  | event e => cases e <;> simp_all [Move.adds, Move.replaces]
  | key current ch => rfl

/-- **How often a device is listed.** After any sequence of events and keys the
entries of `d` are those that were last put in place, by a loss or by `r`,
followed by one for every found of `d` handled since. -/
theorem entries_moves (self : OfApp) (d : Int) (moves : List Move) :
    (self.moves moves).entries d =
      (lastWrite (Move.replaces d) moves).getD (self.entries d) ++
        (moves.rtakeWhile fun m => (m.replaces d).isNone).filterMap (Move.adds d) := by
  induction moves using List.reverseRecOn with
  | nil => simp [OfApp.moves]
  | append_singleton moves m ih =>
      rw [OfApp.moves] at ih
      rw [OfApp.moves, List.foldl_concat, entries_move, ih, lastWrite_concat]
      cases h : m.replaces d with
      | none =>
          rw [List.rtakeWhile_concat_pos _ _ _ (by simp [h]), List.filterMap_append,
            Option.getD_none, Option.none_or, List.append_assoc]
          rfl
      | some entries =>
          -- everything before `m` is overwritten
          rw [List.rtakeWhile_concat_neg _ _ _ (by simp [h]), Move.adds_of_replaces (by simp [h])]
          rfl

end Basic

end DjLink
