import DjLink.Handover
import DjLink.Library.BoundedLog
import Mathlib.Algebra.Order.Ring.Int

/-!
The client of `example-osc`, which passes on the events as OSC messages: one
message for each beat, found and lost, with a count of all messages, a count
for the running second and a log of the latest ones. The fading of the log
entries is left out, and the `int` counters are unbounded.

`ofToString(bpm, 2)` is a function of openFrameworks and enters as a
parameter; it shows in the text of the log only.

What `draw()` shows as the rate is compared with a history cut into seconds at
the looks of `update()` at the clock.
-/

namespace DjLink

open BoundedLog

namespace Osc

def MAX_OSC_LOG : ℕ := 15

/-- `static_cast<int>` of a 64-bit integer. -/
def toInt (x : Int) : Int := x.bmod 4294967296

inductive OscArg where
  | int (value : Int)
  | float (value : Float32)
  | string (value : String)

structure OscMessage where
  address : String
  args : List OscArg

structure OscLogEntry where
  address : String
  args : String

/-- `outbox` is what `oscSender.sendMessage` was called with. -/
structure OfApp where
  outbox : List OscMessage := []
  messagesSent : Int := 0
  messagesPerSecond : Float32 := 0.0
  messageCountLastSecond : Int := 0
  lastSecondTime : Float32 := 0.0
  oscLog : List OscLogEntry := []
  deviceCount : Int := 0

namespace OfApp

def addOscLog (self : OfApp) (address args : String) : OfApp :=
  { self with oscLog := pushFront MAX_OSC_LOG self.oscLog { address := address, args := args } }

/-- `sendMessage` and the two counts. -/
def send (self : OfApp) (msg : OscMessage) : OfApp :=
  { self with
    outbox := self.outbox ++ [msg]
    messagesSent := self.messagesSent + 1
    messageCountLastSecond := self.messageCountLastSecond + 1 }

variable (ofToString2 : Float → String)

def onBeat (self : OfApp) (beat : OfxBeatLinkBeat) : OfApp :=
  let self := self.send
    { address := "/beatlink/beat"
      args := [.int beat.deviceNumber, .float beat.bpm.toFloat32, .int beat.beatWithinBar,
        .int (toInt beat.nextBeatMs), .int (toInt beat.nextBarMs)] }
  let args := toString beat.deviceNumber ++ " " ++ ofToString2 beat.bpm ++ " " ++
    toString beat.beatWithinBar ++ " " ++ toString beat.nextBeatMs ++ " " ++
    toString beat.nextBarMs
  self.addOscLog "/beatlink/beat" args

def onDeviceFound (self : OfApp) (device : OfxBeatLinkDevice) : OfApp :=
  let self := { self with deviceCount := self.deviceCount + 1 }
  let self := self.send
    { address := "/beatlink/device/found"
      args := [.int device.deviceNumber, .string device.deviceName, .string device.ipAddress] }
  let args := toString device.deviceNumber ++ " \"" ++ device.deviceName ++ "\" " ++
    device.ipAddress
  self.addOscLog "/beatlink/device/found" args

def onDeviceLost (self : OfApp) (device : OfxBeatLinkDevice) : OfApp :=
  -- a loss too many is forgotten
  let self := { self with deviceCount := max 0 (self.deviceCount - 1) }
  let self := self.send
    { address := "/beatlink/device/lost"
      args := [.int device.deviceNumber, .string device.deviceName] }
  let args := toString device.deviceNumber ++ " \"" ++ device.deviceName ++ "\""
  self.addOscLog "/beatlink/device/lost" args

def handle (self : OfApp) : Event → OfApp
  | .beat beat => self.onBeat ofToString2 beat
  | .deviceFound device => self.onDeviceFound device
  | .deviceLost device => self.onDeviceLost device
  | .deviceUpdate _ => self
  | .masterChanged _ => self

/-- The part of `update()` that follows `beatLink.update()`, at time `now`. -/
def rollOver (self : OfApp) (now : Float32) : OfApp :=
  if now - self.lastSecondTime ≥ 1.0 then
    { self with
      messagesPerSecond := Float32.ofInt self.messageCountLastSecond
      messageCountLastSecond := 0
      lastSecondTime := now }
  else self

end OfApp

/-! ### What one event sends -/

/-- The message that an event is passed on as. -/
def message? : Event → Option OscMessage
  | .beat ofBeat => some
      { address := "/beatlink/beat"
        args := [.int ofBeat.deviceNumber, .float ofBeat.bpm.toFloat32, .int ofBeat.beatWithinBar,
          .int (toInt ofBeat.nextBeatMs), .int (toInt ofBeat.nextBarMs)] }
  | .deviceFound device => some
      { address := "/beatlink/device/found"
        args := [.int device.deviceNumber, .string device.deviceName, .string device.ipAddress] }
  | .deviceLost device => some
      { address := "/beatlink/device/lost"
        args := [.int device.deviceNumber, .string device.deviceName] }
  | .deviceUpdate _ => none
  | .masterChanged _ => none

variable (ofToString2 : Float → String)

/-- An event is handled, or `update()` looks at the clock. -/
inductive Move where
  | event (e : Event)
  | tick (now : Float32)

def Move.message? : Move → Option OscMessage
  | .event e => Osc.message? e
  | .tick _ => none

def OfApp.move (self : OfApp) : Move → OfApp
  | .event e => self.handle ofToString2 e
  | .tick now => self.rollOver now

def OfApp.run (self : OfApp) (moves : List Move) : OfApp :=
  moves.foldl (OfApp.move ofToString2) self

/-- The messages of a history by seconds: a look at the clock at least one
second after `start` ends the running second. -/
structure Seconds where
  ended : List (List OscMessage) := []
  running : List OscMessage := []
  start : Float32

def Seconds.messages (seconds : Seconds) : List OscMessage :=
  seconds.ended.flatten ++ seconds.running

def Seconds.move (seconds : Seconds) : Move → Seconds
  | .event e => { seconds with running := seconds.running ++ (Osc.message? e).toList }
  | .tick now =>
      if now - seconds.start ≥ 1.0 then
        { ended := seconds.ended ++ [seconds.running], running := [], start := now }
      else seconds

def Seconds.run (seconds : Seconds) (moves : List Move) : Seconds := moves.foldl Seconds.move seconds

/-- The rate of the second that ended last. -/
def Seconds.rate (seconds : Seconds) : Float32 :=
  seconds.ended.getLast?.elim 0.0 fun second => Float32.ofInt second.length

/-- What the client counts and shows is what the history by seconds says. -/
structure OfApp.Follows (app : OfApp) (seconds : Seconds) : Prop where
  outbox : app.outbox = seconds.messages
  sent : app.messagesSent = seconds.messages.length
  shown : app.messagesPerSecond = seconds.rate
  counted : app.messageCountLastSecond = seconds.running.length
  since : app.lastSecondTime = seconds.start

def OfApp.setup (started : Bool) (now : Float32) : OfApp :=
  let self : OfApp :=
    if started then ({} : OfApp).addOscLog "/status" "Started listening"
    else ({} : OfApp).addOscLog "/error" "Failed to start"
  { self with lastSecondTime := now }

end Osc

end DjLink
