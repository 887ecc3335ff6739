import DjLink.Addon

/-!
The process-wide singletons of the library, as far as the addon sees them, and
the methods of `ofxBeatLink` that go through them.

The library itself is not in the repository. Of its `start()` calls the model
takes the outcome as an argument, so that every combination of success and
failure is covered; a start that succeeds leaves its finder running, and one
that fails, or finds it running, changes nothing. A callback registered with a
finder is recorded as the object its lambda captured; the listeners of
`VirtualCdj` are shared pointers, and `make_shared` returns an address that was
never used before.
-/

namespace DjLink

open Beatlink

structure DeviceFinder where
  running : Bool := false
  deviceFoundListeners : List ObjectId := []
  deviceLostListeners : List ObjectId := []

namespace DeviceFinder

def addDeviceFoundListener (self : DeviceFinder) (captured : ObjectId) : DeviceFinder :=
  { self with deviceFoundListeners := self.deviceFoundListeners ++ [captured] }

def addDeviceLostListener (self : DeviceFinder) (captured : ObjectId) : DeviceFinder :=
  { self with deviceLostListeners := self.deviceLostListeners ++ [captured] }

def start (self : DeviceFinder) (started : Bool) : Bool × DeviceFinder :=
  (started, { self with running := self.running || started })

def stop (self : DeviceFinder) : DeviceFinder := { self with running := false }

def clearListeners (self : DeviceFinder) : DeviceFinder :=
  { self with deviceFoundListeners := [], deviceLostListeners := [] }

end DeviceFinder

structure BeatFinder where
  running : Bool := false
  beatListeners : List ObjectId := []

namespace BeatFinder

def addBeatListener (self : BeatFinder) (captured : ObjectId) : BeatFinder :=
  { self with beatListeners := self.beatListeners ++ [captured] }

def start (self : BeatFinder) (started : Bool) : Bool × BeatFinder :=
  (started, { self with running := self.running || started })

def stop (self : BeatFinder) : BeatFinder := { self with running := false }

def clearListeners (self : BeatFinder) : BeatFinder := { self with beatListeners := [] }

end BeatFinder

structure VirtualCdj where
  running : Bool := false
  deviceNumber : UInt8 := 0
  deviceName : String := ""
  updateListeners : List ListenerPtr := []
  masterListeners : List ListenerPtr := []
  /-- The last tempo master announced, none for the null pointer. -/
  tempoMaster : Option DeviceUpdate := none
  masterTempo : Float := 0.0

namespace VirtualCdj

def setDeviceName (self : VirtualCdj) (name : String) : VirtualCdj :=
  { self with deviceName := name }

def addUpdateListener (self : VirtualCdj) (listener : ListenerPtr) : VirtualCdj :=
  { self with updateListeners := self.updateListeners ++ [listener] }

def addMasterListener (self : VirtualCdj) (listener : ListenerPtr) : VirtualCdj :=
  { self with masterListeners := self.masterListeners ++ [listener] }

def removeUpdateListener (self : VirtualCdj) (listener : ListenerPtr) : VirtualCdj :=
  { self with updateListeners := self.updateListeners.filter fun l => l.address ≠ listener.address }

def removeMasterListener (self : VirtualCdj) (listener : ListenerPtr) : VirtualCdj :=
  { self with masterListeners := self.masterListeners.filter fun l => l.address ≠ listener.address }

/-- `start(request)`, and with no request `start()`, which takes the number
`assigned` that it finds free. -/
def start (self : VirtualCdj) (request : Option UInt8) (started : Bool) (assigned : UInt8) :
    Bool × VirtualCdj :=
  (started,
    if started && !self.running then
      { self with running := true, deviceNumber := request.getD assigned }
    else self)

def stop (self : VirtualCdj) : VirtualCdj := { self with running := false }

end VirtualCdj

/-- The singletons, with the first address at which no listener was ever
allocated. -/
structure Singletons where
  deviceFinder : DeviceFinder := {}
  beatFinder : BeatFinder := {}
  virtualCdj : VirtualCdj := {}
  nextAddress : Nat := 0

/-- `std::make_shared` of a listener whose lambdas capture `captured`. -/
def Singletons.makeShared (lib : Singletons) (captured : ObjectId) : ListenerPtr × Singletons :=
  (⟨lib.nextAddress, captured⟩, { lib with nextAddress := lib.nextAddress + 1 })

namespace OfxBeatLink

/-- `start()` of the object `this`, with the outcomes of the two finders. -/
def start (self : OfxBeatLink) (this : ObjectId) (lib : Singletons)
    (deviceStarted beatStarted : Bool) : Bool × OfxBeatLink × Singletons :=
  if self.running then (true, self, lib)
  else
    let deviceFinder := lib.deviceFinder.addDeviceFoundListener this
    let deviceFinder := deviceFinder.addDeviceLostListener this
    let beatFinder := lib.beatFinder.addBeatListener this
    let (deviceStarted, deviceFinder) := deviceFinder.start deviceStarted
    if !deviceStarted then
      (false, self, { lib with deviceFinder := deviceFinder, beatFinder := beatFinder })
    else
      let (beatStarted, beatFinder) := beatFinder.start beatStarted
      if !beatStarted then
        (false, self, { lib with deviceFinder := deviceFinder.stop, beatFinder := beatFinder })
      else
        (true, { self with running := true },
          { lib with deviceFinder := deviceFinder, beatFinder := beatFinder })

def stop (self : OfxBeatLink) (lib : Singletons) : OfxBeatLink × Singletons :=
  if !self.running then (self, lib)
  else
    let beatFinder := lib.beatFinder.stop.clearListeners
    let deviceFinder := lib.deviceFinder.stop.clearListeners
    ({ self with running := false },
      { lib with deviceFinder := deviceFinder, beatFinder := beatFinder })

/-- `startVirtualCdj(deviceNumber)` of the object `this`, with the outcome of
`VirtualCdj::start` and the number it takes when it is free to choose. -/
def startVirtualCdj (self : OfxBeatLink) (this : ObjectId) (lib : Singletons)
    (deviceNumber : Int) (started : Bool) (assigned : UInt8) :
    Bool × OfxBeatLink × Singletons :=
  if self.virtualCdjRunning then (true, self, lib)
  else
    let virtualCdj := lib.virtualCdj.setDeviceName self.virtualCdjName
    let (deviceUpdateListener, lib) := lib.makeShared this
    let virtualCdj := virtualCdj.addUpdateListener deviceUpdateListener
    let (masterListener, lib) := lib.makeShared this
    let virtualCdj := virtualCdj.addMasterListener masterListener
    let (started, virtualCdj) :=
      if deviceNumber = 0 then virtualCdj.start none started assigned
      else virtualCdj.start (some (UInt8.ofInt deviceNumber)) started assigned
    if !started then
      let virtualCdj := virtualCdj.removeUpdateListener deviceUpdateListener
      let virtualCdj := virtualCdj.removeMasterListener masterListener
      (false, { self with deviceUpdateListener := none, masterListener := none },
        { lib with virtualCdj := virtualCdj })
    else
      (true,
        { self with
          deviceUpdateListener := some deviceUpdateListener
          masterListener := some masterListener
          virtualCdjRunning := true },
        { lib with virtualCdj := virtualCdj })

def stopVirtualCdj (self : OfxBeatLink) (lib : Singletons) : OfxBeatLink × Singletons :=
  if !self.virtualCdjRunning then (self, lib)
  else
    let virtualCdj := lib.virtualCdj
    let (self, virtualCdj) :=
      match self.deviceUpdateListener with
      | some listener =>
          ({ self with deviceUpdateListener := none }, virtualCdj.removeUpdateListener listener)
      | none => (self, virtualCdj)
    let (self, virtualCdj) :=
      match self.masterListener with
      | some listener =>
          ({ self with masterListener := none }, virtualCdj.removeMasterListener listener)
      | none => (self, virtualCdj)
    ({ self with virtualCdjRunning := false }, { lib with virtualCdj := virtualCdj.stop })

/-- `~ofxBeatLink()`: the object is gone, the singletons remain. -/
def destroy (self : OfxBeatLink) (lib : Singletons) : Singletons :=
  let (self, lib) := self.stopVirtualCdj lib
  let (_, lib) := self.stop lib
  lib

def getVirtualCdjDeviceNumber (self : OfxBeatLink) (virtualCdj : VirtualCdj) : Int :=
  if !self.virtualCdjRunning then 0 else virtualCdj.deviceNumber.toNat

def getTempoMaster (self : OfxBeatLink) (virtualCdj : VirtualCdj) (now : Nat) :
    Option OfxBeatLinkCdjStatus :=
  if !self.virtualCdjRunning then none
  else
    match virtualCdj.tempoMaster with
    | none => none
    | some master =>
        match master.asCdjStatus with
        | none => none
        | some cdjStatus => some (convertCdjStatus now cdjStatus)

def getMasterTempo (self : OfxBeatLink) (virtualCdj : VirtualCdj) : Float :=
  if !self.virtualCdjRunning then 0.0 else virtualCdj.masterTempo

end OfxBeatLink

end DjLink
