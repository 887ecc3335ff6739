import DjLink.Handover
import DjLink.Library.BoundedLog

/-!
The client of `example-comprehensive`: a fixed array of four slots, one for
each of the device numbers 1 to 4, and the number of the tempo master. What it
computes for drawing (flashes, progress, waveforms) is left out.

A slot is a handful of registers. Those that one queue writes come out the same
in the order of the queues as in the order of arrival; the others are `connected`
(found and lost), `lastBeat` (beat and lost) and `status` (lost and update).
No event changes whether a database is loaded.
-/

namespace DjLink

open LastWrite Buckets BoundedLog

namespace Comprehensive

def MAX_DEVICES : ℕ := 4

def MAX_BEAT_HISTORY : ℕ := 60

structure BeatHistoryEntry where
  timestamp : ℕ
  bpm : Float

structure DeviceState where
  connected : Bool := false
  info : OfxBeatLinkDevice := {}
  status : Option OfxBeatLinkCdjStatus := none
  lastBeat : Option OfxBeatLinkBeat := none
  lastBeatTime : ℕ := 0
  trackTitle : String := ""
  beatHistory : List BeatHistoryEntry := []

structure OfApp where
  devices : Vector DeviceState MAX_DEVICES := Vector.replicate MAX_DEVICES {}
  masterDeviceNumber : Int := -1
  databaseLoaded : Bool := false

/-- `int idx = deviceNumber - 1; if (idx < 0 || idx >= MAX_DEVICES) return;`. -/
def slot? (deviceNumber : Int) : Option (Fin MAX_DEVICES) :=
  let idx := deviceNumber - 1
  if h : idx < 0 ∨ (MAX_DEVICES : Int) ≤ idx then none
  else some ⟨idx.toNat, by omega⟩

/-- What `onDeviceUpdate` does with the slot of its device. -/
def DeviceState.showStatus (slot : DeviceState) (databaseLoaded : Bool)
    (status : OfxBeatLinkCdjStatus) : DeviceState :=
  let slot := { slot with status := some status }
  if databaseLoaded && decide (0 < status.rekordboxId) then
    if slot.trackTitle.isEmpty then
      { slot with trackTitle := "Track #" ++ toString status.rekordboxId }
    else slot
  else slot

namespace OfApp

/-- What a handler does with the slot of its device. -/
def modifySlot (self : OfApp) (deviceNumber : Int) (f : DeviceState → DeviceState) : OfApp :=
  match slot? deviceNumber with
  | some idx => { self with devices := self.devices.set idx (f self.devices[idx]) }
  | none => self

/-- `now` is the clock while the handler runs. -/
def onBeat (self : OfApp) (now : ℕ) (beat : OfxBeatLinkBeat) : OfApp :=
  self.modifySlot beat.deviceNumber fun device =>
    { device with
      lastBeat := some beat
      lastBeatTime := now
      beatHistory := pushBack MAX_BEAT_HISTORY device.beatHistory
        { timestamp := now, bpm := beat.bpm } }

def onDeviceFound (self : OfApp) (device : OfxBeatLinkDevice) : OfApp :=
  self.modifySlot device.deviceNumber fun slot => { slot with connected := true, info := device }

def onDeviceLost (self : OfApp) (device : OfxBeatLinkDevice) : OfApp :=
  self.modifySlot device.deviceNumber fun slot =>
    -- the title and the history stay, for the next device with this number as well
    { slot with connected := false, status := none, lastBeat := none }

def onDeviceUpdate (self : OfApp) (status : OfxBeatLinkCdjStatus) : OfApp :=
  self.modifySlot status.deviceNumber fun slot => slot.showStatus self.databaseLoaded status

def onMasterChanged (self : OfApp) (status : OfxBeatLinkCdjStatus) : OfApp :=
  { self with masterDeviceNumber := status.deviceNumber }

def handle (self : OfApp) (timedEvent : ℕ × Event) : OfApp :=
  match timedEvent.2 with
  | .beat beat => self.onBeat timedEvent.1 beat
  | .deviceFound device => self.onDeviceFound device
  | .deviceLost device => self.onDeviceLost device
  | .deviceUpdate status => self.onDeviceUpdate status
  | .masterChanged status => self.onMasterChanged status

def handleAll (self : OfApp) (events : List (ℕ × Event)) : OfApp := events.foldl handle self

end OfApp

/-! ### What an event does to a slot -/

def DeviceState.bpms (state : DeviceState) : List Float :=
  state.beatHistory.map BeatHistoryEntry.bpm

/-- What an event does to the number of the master. -/
def masterStep (master : Int) : Event → Int
  | .masterChanged status => status.deviceNumber
  | _ => master

/-- Two slots show the same. The time of the last beat is left out, and of the
history the times: they are read off the clock when the events are handled. -/
structure DeviceState.Shows (one other : DeviceState) : Prop where
  connected : one.connected = other.connected
  info : one.info = other.info
  status : one.status = other.status
  lastBeat : one.lastBeat = other.lastBeat
  trackTitle : one.trackTitle = other.trackTitle
  bpms : one.bpms = other.bpms

/-- If the last write of a field of device `d` is of the queue that is drained
early, no write of the other queue precedes it in its frame: a loss of the last
found or of the last beat, a status of the last loss. -/
def InOrder (d : Int) (frames : List (List Event)) : Prop :=
  NoneOvertakes Event.queue (Event.listedOp d) .deviceFound .deviceLost frames ∧
    NoneOvertakes Event.queue (Event.beatEntryOp d) .beat .deviceLost frames ∧
    NoneOvertakes Event.queue (Event.statusEntryOp d) .deviceLost .deviceUpdate frames

end Comprehensive

end DjLink
