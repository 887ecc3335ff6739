import Mathlib.Data.List.Basic

/-!
The values that travel through the addon: what it reads of the library's
objects, the three plain structures it hands to its users, and the
conversions between them. A library object is the record of the getters the
addon calls on it. The `double` fields are carried as `Float` and never
computed with beyond the conversions, and `std::map<int, T>` is the ordered
map of the standard library, which is extensional: two maps with the same
lookups are equal.
-/

namespace DjLink

/-- `std::map<int, α>`. -/
abbrev IntMap (α : Type) := Std.ExtTreeMap Int α

@[simp] theorem IntMap.getElem?_insert_eq {α : Type} (m : IntMap α) (k a : Int) (v : α) :
    (m.insert k v)[a]? = if k = a then some v else m[a]? := by
  simp [Std.ExtTreeMap.getElem?_insert]

@[simp] theorem IntMap.getElem?_erase_eq {α : Type} (m : IntMap α) (k a : Int) :
    (m.erase k)[a]? = if k = a then none else m[a]? := by
  simp [Std.ExtTreeMap.getElem?_erase]

/-- Identity of an `ofxBeatLink` object, the `this` that a lambda captures. -/
abbrev ObjectId := Nat

/-! ### What the addon reads of `beatlink` objects -/

namespace Beatlink

structure Beat where
  deviceNumber : Int
  deviceName : String
  effectiveTempo : Float
  bpm : Int
  beatWithinBar : Int
  /-- `Util::pitchToPercentage(getPitch())`. -/
  pitchPercentage : Float
  nextBeat : Int
  nextBar : Int
  deriving Inhabited

structure DeviceAnnouncement where
  deviceNumber : Int
  deviceName : String
  /-- `getAddress().to_string()`. -/
  address : String
  hardwareAddressString : String
  isOpusQuad : Bool
  isXdjAz : Bool
  deriving Inhabited

structure CdjStatus where
  deviceNumber : Int
  deviceName : String
  /-- `getAddress().to_string()`. -/
  address : String
  isPlaying : Bool
  isTrackLoaded : Bool
  isAtCue : Bool
  isPlayingForwards : Bool
  isPlayingBackwards : Bool
  isTempoMaster : Bool
  isSynced : Bool
  isOnAir : Bool
  isBpmOnlySynced : Bool
  bpm : Int
  effectiveTempo : Float
  /-- `Util::pitchToPercentage(getPitch())`. -/
  pitchPercentage : Float
  beatWithinBar : Int
  beatNumber : Int
  trackSourcePlayer : Int
  rekordboxId : Int
  trackNumber : Int
  deriving Inhabited

/-- A `DeviceUpdate` is a `CdjStatus` or an update of another kind, such as a
mixer status, of which the addon reads nothing. -/
inductive DeviceUpdate where
  | cdjStatus (status : CdjStatus)
  | other

/-- `dynamic_cast<const CdjStatus*>`. -/
def DeviceUpdate.asCdjStatus : DeviceUpdate → Option CdjStatus
  | .cdjStatus status => some status
  | .other => none

/-- A shared pointer to a listener object, with the object its lambdas
captured. -/
structure ListenerPtr where
  address : Nat
  captured : ObjectId
  deriving DecidableEq

end Beatlink

/-! ### What the addon hands to its users -/

structure OfxBeatLinkBeat where
  deviceNumber : Int := 0
  deviceName : String := ""
  bpm : Float := 0.0
  trackBpm : Float := 0.0
  beatWithinBar : Int := 1
  pitchPercent : Float := 0.0
  nextBeatMs : Int := 0
  nextBarMs : Int := 0

structure OfxBeatLinkDevice where
  deviceNumber : Int := 0
  deviceName : String := ""
  ipAddress : String := ""
  macAddress : String := ""
  isOpusQuad : Bool := false
  isXdjAz : Bool := false

structure OfxBeatLinkCdjStatus where
  deviceNumber : Int := 0
  deviceName : String := ""
  ipAddress : String := ""
  isPlaying : Bool := false
  isTrackLoaded : Bool := false
  isAtCue : Bool := false
  isPlayingForwards : Bool := false
  isPlayingBackwards : Bool := false
  isMaster : Bool := false
  isSynced : Bool := false
  isOnAir : Bool := false
  isBpmOnlySynced : Bool := false
  bpm : Float := 0.0
  effectiveBpm : Float := 0.0
  pitchPercent : Float := 0.0
  beatWithinBar : Int := 1
  beatNumber : Int := -1
  trackSourcePlayer : Int := 0
  rekordboxId : Int := 0
  trackNumber : Int := 0
  timestamp : Nat := 0

def convertBeat (beat : Beatlink.Beat) : OfxBeatLinkBeat where
  deviceNumber := beat.deviceNumber
  deviceName := beat.deviceName
  bpm := beat.effectiveTempo
  trackBpm := Float.ofInt beat.bpm / 100.0
  beatWithinBar := beat.beatWithinBar
  pitchPercent := beat.pitchPercentage
  nextBeatMs := beat.nextBeat
  nextBarMs := beat.nextBar

def convertDevice (device : Beatlink.DeviceAnnouncement) : OfxBeatLinkDevice where
  deviceNumber := device.deviceNumber
  deviceName := device.deviceName
  ipAddress := device.address
  macAddress := device.hardwareAddressString
  isOpusQuad := device.isOpusQuad
  isXdjAz := device.isXdjAz

/-- `now` is what `ofGetElapsedTimeMillis()` returns during the conversion. -/
def convertCdjStatus (now : Nat) (status : Beatlink.CdjStatus) : OfxBeatLinkCdjStatus where
  deviceNumber := status.deviceNumber
  deviceName := status.deviceName
  ipAddress := status.address
  isPlaying := status.isPlaying
  isTrackLoaded := status.isTrackLoaded
  isAtCue := status.isAtCue
  isPlayingForwards := status.isPlayingForwards
  isPlayingBackwards := status.isPlayingBackwards
  isMaster := status.isTempoMaster
  isSynced := status.isSynced
  isOnAir := status.isOnAir
  isBpmOnlySynced := status.isBpmOnlySynced
  bpm := Float.ofInt status.bpm / 100.0
  effectiveBpm := status.effectiveTempo
  pitchPercent := status.pitchPercentage
  beatWithinBar := status.beatWithinBar
  beatNumber := status.beatNumber
  trackSourcePlayer := status.trackSourcePlayer
  rekordboxId := status.rekordboxId
  trackNumber := status.trackNumber
  timestamp := now

@[simp] theorem convertBeat_deviceNumber (beat : Beatlink.Beat) :
    (convertBeat beat).deviceNumber = beat.deviceNumber := rfl

@[simp] theorem convertDevice_deviceNumber (device : Beatlink.DeviceAnnouncement) :
    (convertDevice device).deviceNumber = device.deviceNumber := rfl

@[simp] theorem convertCdjStatus_deviceNumber (now : Nat) (status : Beatlink.CdjStatus) :
    (convertCdjStatus now status).deviceNumber = status.deviceNumber := rfl

end DjLink
