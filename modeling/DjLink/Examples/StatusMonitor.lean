import DjLink.Handover
import DjLink.Library.BoundedLog

/-!
The client of `example-statusmonitor`. It takes a device for playing from a
beat on until no beat of it has come for two seconds, which `update()` finds
out by the clock, and it logs when a device starts to play. Times are the
64-bit milliseconds of `ofGetElapsedTimeMillis`. The fading of the beat flash,
the flags that nothing sets and the colours of the log are left out.

What the monitor shows of a device is a function of four registers of the
history: its last lifecycle event, its last beat, the time of that beat, and
the last frame since.
-/

namespace DjLink

open LastWrite BoundedLog

namespace StatusMonitor

def PLAYING_TIMEOUT_MS : UInt64 := 2000

def MAX_LOG : ℕ := 12

structure DeviceStatus where
  info : OfxBeatLinkDevice
  lastBeat : Option OfxBeatLinkBeat := none
  isPlaying : Bool := false
  lastUpdateTime : UInt64 := 0

/-- The body of the loop of `update()` over the devices. -/
def DeviceStatus.refresh (now : UInt64) (status : DeviceStatus) : DeviceStatus :=
  if status.lastBeat.isSome then
    { status with isPlaying := now - status.lastUpdateTime < PLAYING_TIMEOUT_MS }
  else status

structure LogEntry where
  timestamp : String
  message : String

structure OfApp where
  devices : IntMap DeviceStatus := ∅
  eventLog : List LogEntry := []

/-- What happens to the monitor: an event is handled, the devices are looked
through after `beatLink.update()`, or `r` is pressed while the library lists a
number of devices. `timestamp` is the time of day. -/
inductive Move where
  | event (now : UInt64) (timestamp : String) (e : Event)
  | tick (now : UInt64)
  | refresh (timestamp : String) (count : ℕ)

namespace OfApp

def addLog (self : OfApp) (timestamp message : String) : OfApp :=
  { self with eventLog := pushFront MAX_LOG self.eventLog ⟨timestamp, message⟩ }

def onBeat (self : OfApp) (now : UInt64) (timestamp : String) (beat : OfxBeatLinkBeat) : OfApp :=
  match self.devices[beat.deviceNumber]? with
  -- a beat does not list its device
  | none => self
  | some status =>
      let wasPlaying := status.isPlaying
      let self := { self with
        devices := self.devices.insert beat.deviceNumber
          { status with lastBeat := some beat, lastUpdateTime := now, isPlaying := true } }
      if !wasPlaying then
        self.addLog timestamp
          (status.info.deviceName ++ " #" ++ toString beat.deviceNumber ++ " started playing")
      else self

def onDeviceFound (self : OfApp) (now : UInt64) (timestamp : String) (device : OfxBeatLinkDevice) :
    OfApp :=
  let self := { self with
    devices := self.devices.insert device.deviceNumber { info := device, lastUpdateTime := now } }
  self.addLog timestamp
    (device.deviceName ++ " #" ++ toString device.deviceNumber ++ " connected (" ++
      device.ipAddress ++ ")")

def onDeviceLost (self : OfApp) (timestamp : String) (device : OfxBeatLinkDevice) : OfApp :=
  let self := { self with devices := self.devices.erase device.deviceNumber }
  self.addLog timestamp
    (device.deviceName ++ " #" ++ toString device.deviceNumber ++ " disconnected")

def handle (self : OfApp) (now : UInt64) (timestamp : String) : Event → OfApp
  | .beat beat => self.onBeat now timestamp beat
  | .deviceFound device => self.onDeviceFound now timestamp device
  | .deviceLost device => self.onDeviceLost timestamp device
  | .deviceUpdate _ => self
  | .masterChanged _ => self

/-- `update()` after `beatLink.update()`. -/
def tick (self : OfApp) (now : UInt64) : OfApp :=
  { self with devices := self.devices.map fun _ status => status.refresh now }

def setup (timestamp : String) (started : Bool) : OfApp :=
  if started then ({} : OfApp).addLog timestamp "Started monitoring on ports 50000/50001"
  else ({} : OfApp).addLog timestamp "ERROR: Failed to start"

def move (self : OfApp) : Move → OfApp
  | .event now timestamp e => self.handle now timestamp e
  | .tick now => self.tick now
  | .refresh timestamp count =>
      self.addLog timestamp ("Refreshed: " ++ toString count ++ " devices")

def run (self : OfApp) (moves : List Move) : OfApp := moves.foldl move self

end OfApp

/-! ### What the history says of a device -/

/-- Since when the device is there, and as what. -/
def foundOp (d : Int) : Move → Option (Option (UInt64 × OfxBeatLinkDevice))
  | .event now _ (.deviceFound device) =>
      if device.deviceNumber = d then some (some (now, device)) else none
  | .event _ _ (.deviceLost device) => if device.deviceNumber = d then some none else none
  | _ => none

/-- The last beat, forgotten when the device is found or lost. -/
def beatOp (d : Int) : Move → Option (Option (UInt64 × OfxBeatLinkBeat))
  | .event now _ (.beat ofBeat) =>
      if ofBeat.deviceNumber = d then some (some (now, ofBeat)) else none
  | .event _ _ (.deviceFound device) => if device.deviceNumber = d then some none else none
  | .event _ _ (.deviceLost device) => if device.deviceNumber = d then some none else none
  | _ => none

/-- The last frame since the last beat. -/
def frameOp (d : Int) : Move → Option (Option UInt64)
  | .event _ _ (.beat ofBeat) => if ofBeat.deviceNumber = d then some none else none
  | .tick now => some (some now)
  | _ => none

/-- A device plays from a beat on until a frame finds the beat too old. -/
def playing (lastBeat : Option (UInt64 × OfxBeatLinkBeat)) (frame : Option UInt64) : Bool :=
  match lastBeat, frame with
  | none, _ => false
  | some _, none => true
  | some (time, _), some now => now - time < PLAYING_TIMEOUT_MS

/-- What the monitor holds of `d`, read off the history. -/
def entry (d : Int) (moves : List Move) : Option DeviceStatus :=
  (lastWrite (foundOp d) moves).join.map fun found =>
    let lastBeat := (lastWrite (beatOp d) moves).join
    { info := found.2
      lastBeat := lastBeat.map Prod.snd
      isPlaying := playing lastBeat (lastWrite (frameOp d) moves).join
      lastUpdateTime := (lastBeat.map Prod.fst).getD found.1 }

/-- The lines that a move adds to the log. -/
def lines (before : List Move) : Move → List LogEntry
  | .event _ timestamp (.beat ofBeat) =>
      match entry ofBeat.deviceNumber before with
      | none => []
      | some status =>
          if status.isPlaying then []
          else [⟨timestamp,
            status.info.deviceName ++ " #" ++ toString ofBeat.deviceNumber ++ " started playing"⟩]
  | .event _ timestamp (.deviceFound device) =>
      [⟨timestamp, device.deviceName ++ " #" ++ toString device.deviceNumber ++ " connected (" ++
        device.ipAddress ++ ")"⟩]
  | .event _ timestamp (.deviceLost device) =>
      [⟨timestamp, device.deviceName ++ " #" ++ toString device.deviceNumber ++ " disconnected"⟩]
  | .event _ _ (.deviceUpdate _) => []
  | .event _ _ (.masterChanged _) => []
  | .tick _ => []
  | .refresh timestamp count => [⟨timestamp, "Refreshed: " ++ toString count ++ " devices"⟩]

/-- The lines of a whole run, oldest first. -/
def linesFrom (before : List Move) : List Move → List LogEntry
  | [] => []
  | m :: moves => lines before m ++ linesFrom (before ++ [m]) moves

theorem linesFrom_concat (before moves : List Move) (m : Move) :
    linesFrom before (moves ++ [m]) = linesFrom before moves ++ lines (before ++ moves) m := by
  induction moves generalizing before with
  | nil => simp [linesFrom]
  | cons x moves ih => simp [linesFrom, ih]

/-! ### One move -/

theorem entry_of_event {d : Int} (now : UInt64) (timestamp : String) (e : Event)
    (moves : List Move) (hfound : foundOp d (.event now timestamp e) = none)
    (hbeat : beatOp d (.event now timestamp e) = none)
    (hframe : frameOp d (.event now timestamp e) = none) :
    entry d (moves ++ [.event now timestamp e]) = entry d moves := by
  simp [entry, hfound, hbeat, hframe]

/-- A beat of a device that is there makes it play. -/
theorem entry_of_beat (now : UInt64) (timestamp : String) (moves : List Move)
    (ofBeat : OfxBeatLinkBeat) :
    entry ofBeat.deviceNumber (moves ++ [.event now timestamp (.beat ofBeat)]) =
      (entry ofBeat.deviceNumber moves).map fun status =>
        { status with lastBeat := some ofBeat, lastUpdateTime := now, isPlaying := true } := by
  simp [entry, foundOp, beatOp, frameOp, playing, Function.comp_def]

/-- A frame looks at the clock for every device that has had a beat. -/
theorem entry_of_tick (now : UInt64) (moves : List Move) (d : Int) :
    entry d (moves ++ [.tick now]) = (entry d moves).map (DeviceStatus.refresh now) := by
  have hfound : lastWrite (foundOp d) (moves ++ [.tick now]) = lastWrite (foundOp d) moves := by
    rw [lastWrite_concat]
    rfl
  have hbeat : lastWrite (beatOp d) (moves ++ [.tick now]) = lastWrite (beatOp d) moves := by
    rw [lastWrite_concat]
    rfl
  have hframe : lastWrite (frameOp d) (moves ++ [.tick now]) = some (some now) := by
    rw [lastWrite_concat]
    rfl
  rw [entry, entry, hfound, hbeat, hframe, Option.map_map]
  refine congrArg (fun f => (lastWrite (foundOp d) moves).join.map f) (funext fun found => ?_)
  cases (lastWrite (beatOp d) moves).join with
  | none => rfl
  | some beat => rfl

theorem devices_addLog (self : OfApp) (timestamp message : String) :
    (self.addLog timestamp message).devices = self.devices := rfl

theorem devices_onBeat (self : OfApp) (now : UInt64) (timestamp : String)
    (ofBeat : OfxBeatLinkBeat) (d : Int) :
    (self.onBeat now timestamp ofBeat).devices[d]? =
      if ofBeat.deviceNumber = d then
        self.devices[d]?.map fun status =>
          { status with lastBeat := some ofBeat, lastUpdateTime := now, isPlaying := true }
      else self.devices[d]? := by
  rw [OfApp.onBeat]
  by_cases hd : ofBeat.deviceNumber = d
  · subst hd
    split
    next hnone => simp [hnone]
    next status hsome => cases hplaying : status.isPlaying <;> simp [devices_addLog, hsome]
  · split
    next hnone => simp [hd]
    next status hsome => cases hplaying : status.isPlaying <;> simp [devices_addLog, hd]

theorem devices_move {self : OfApp} {moves : List Move}
    (h : ∀ d, self.devices[d]? = entry d moves) (m : Move) (d : Int) :
    (self.move m).devices[d]? = entry d (moves ++ [m]) := by
  cases m with
  | event now timestamp e =>
      cases e with
      | beat ofBeat =>
          rw [OfApp.move, OfApp.handle, devices_onBeat, h d]
          by_cases hd : ofBeat.deviceNumber = d
          · subst hd
            rw [if_pos rfl, entry_of_beat]
          · rw [if_neg hd, entry_of_event now timestamp (.beat ofBeat) moves rfl]
            · exact if_neg hd
            · exact if_neg hd
      | deviceFound device =>
          by_cases hd : device.deviceNumber = d
          · simp [OfApp.move, OfApp.handle, OfApp.onDeviceFound, devices_addLog, hd, entry, foundOp,
              beatOp, playing]
          · rw [entry_of_event now timestamp (.deviceFound device) moves (if_neg hd) (if_neg hd) rfl,
              ← h d]
            simp [OfApp.move, OfApp.handle, OfApp.onDeviceFound, devices_addLog, hd]
      | deviceLost device =>
          by_cases hd : device.deviceNumber = d
          · simp [OfApp.move, OfApp.handle, OfApp.onDeviceLost, devices_addLog, hd, entry, foundOp]
          · rw [entry_of_event now timestamp (.deviceLost device) moves (if_neg hd) (if_neg hd) rfl,
              ← h d]
            simp [OfApp.move, OfApp.handle, OfApp.onDeviceLost, devices_addLog, hd]
      | deviceUpdate status =>
          rw [entry_of_event now timestamp (.deviceUpdate status) moves rfl rfl rfl, ← h d]
          rfl
      | masterChanged status =>
          rw [entry_of_event now timestamp (.masterChanged status) moves rfl rfl rfl, ← h d]
          rfl
  | tick now =>
      rw [entry_of_tick, ← h d]
      exact Std.ExtTreeMap.getElem?_map ..
  | refresh timestamp count =>
      rw [OfApp.move, devices_addLog, h d]
      simp [entry, foundOp, beatOp, frameOp]

/-- What a move adds to the log is what the history says. -/
theorem eventLog_move {self : OfApp} {moves : List Move}
    (h : ∀ d, self.devices[d]? = entry d moves) (m : Move) :
    (self.move m).eventLog = (lines moves m).foldl (pushFront MAX_LOG) self.eventLog := by
  cases m with
  | event now timestamp e =>
      cases e with
      | beat ofBeat =>
          rw [OfApp.move, OfApp.handle, OfApp.onBeat, lines, h ofBeat.deviceNumber]
          split
          next => rfl
          next status hsome =>
            cases hplaying : status.isPlaying <;> simp [OfApp.addLog]
      | deviceFound device => rfl
      | deviceLost device => rfl
      | deviceUpdate status => rfl
      | masterChanged status => rfl
  | tick now => rfl
  | refresh timestamp count => rfl

/-! ### Whole runs -/

theorem devices_run (timestamp : String) (started : Bool) (moves : List Move) (d : Int) :
    ((OfApp.setup timestamp started).run moves).devices[d]? = entry d moves := by
  induction moves using List.reverseRecOn generalizing d with
  | nil => cases started <;> simp [OfApp.run, OfApp.setup, devices_addLog, entry]
  | append_singleton moves m ih =>
      rw [OfApp.run, List.foldl_concat]
      -- the induction is for all devices at once: a line asks for another one
      exact devices_move ih m d

/-- **What the monitor shows.** After any sequence of events, frames and keys
the entry of every device is what the history says of it, and the log holds the
newest lines, where a beat adds one exactly if it finds its device listed and
not playing. -/
theorem monitor_run (timestamp : String) (started : Bool) (moves : List Move) :
    (∀ d, ((OfApp.setup timestamp started).run moves).devices[d]? = entry d moves) ∧
      ((OfApp.setup timestamp started).run moves).eventLog =
        ((linesFrom [] moves).reverse ++ (OfApp.setup timestamp started).eventLog).take MAX_LOG := by
  refine ⟨devices_run timestamp started moves, ?_⟩
  have hsetup : (OfApp.setup timestamp started).eventLog.length ≤ MAX_LOG := by
    cases started <;> simp [OfApp.setup, OfApp.addLog, pushFront, popBack_eq_take, MAX_LOG]
  rw [← foldl_pushFront MAX_LOG hsetup]
  induction moves using List.reverseRecOn with
  | nil => rfl
  | append_singleton moves m ih =>
      rw [OfApp.run, List.foldl_concat, linesFrom_concat, List.nil_append, List.foldl_append, ← ih]
      exact eventLog_move (devices_run timestamp started moves) m

end StatusMonitor

end DjLink
