import DjLink.Addon

/-!
The client that the repository ships, the `ofApp` of `example-virtualcdj`: it
keeps a map of the players it has been told about and the device it believes
to be the tempo master. What it keeps for drawing only (fades, times, the log)
is left out.

A client sees events and nothing else, so its state is a fold over the events
in the order it is handed them.
-/

namespace DjLink

structure PlayerState where
  info : OfxBeatLinkDevice
  status : Option OfxBeatLinkCdjStatus := none
  lastBeat : Option OfxBeatLinkBeat := none

structure OfApp where
  players : IntMap PlayerState := ∅
  currentMaster : Option Int := none

namespace OfApp

def onBeat (self : OfApp) (beat : OfxBeatLinkBeat) : OfApp :=
  match self.players[beat.deviceNumber]? with
  | some state =>
      { self with
        players := self.players.insert beat.deviceNumber { state with lastBeat := some beat } }
  | none => self

def onDeviceFound (self : OfApp) (device : OfxBeatLinkDevice) : OfApp :=
  { self with players := self.players.insert device.deviceNumber { info := device } }

def onDeviceLost (self : OfApp) (device : OfxBeatLinkDevice) : OfApp :=
  let self :=
    if self.currentMaster = some device.deviceNumber then { self with currentMaster := none }
    else self
  { self with players := self.players.erase device.deviceNumber }

def onDeviceUpdate (self : OfApp) (status : OfxBeatLinkCdjStatus) : OfApp :=
  match self.players[status.deviceNumber]? with
  | some state =>
      { self with
        players := self.players.insert status.deviceNumber
          { state with status := some status } }
  | none => self

def onMasterChanged (self : OfApp) (status : OfxBeatLinkCdjStatus) : OfApp :=
  { self with currentMaster := some status.deviceNumber }

def handle (self : OfApp) : Event → OfApp
  | .beat beat => self.onBeat beat
  | .deviceFound device => self.onDeviceFound device
  | .deviceLost device => self.onDeviceLost device
  | .deviceUpdate status => self.onDeviceUpdate status
  | .masterChanged status => self.onMasterChanged status

def handleAll (self : OfApp) (events : List Event) : OfApp := events.foldl handle self

theorem handleAll_append (self : OfApp) (events more : List Event) :
    self.handleAll (events ++ more) = (self.handleAll events).handleAll more := by
  simp [handleAll]

end OfApp

/-! ### One object and one client -/

/-- What happens to an addon object and its client: a thread of the library
runs a callback, or the client calls `update()`. -/
inductive Input where
  | callback (cb : Callback)
  | update

/-- An addon object together with the client that listens to it. -/
structure Session where
  addon : OfxBeatLink := {}
  client : OfApp := {}

namespace Session

def step (self : Session) : Input → Session
  | .callback cb => { self with addon := self.addon.callback cb }
  | .update =>
      let (addon, handed) := self.addon.update
      { addon := addon, client := self.client.handleAll handed }

def run (self : Session) (inputs : List Input) : Session := inputs.foldl step self

end Session

/-- The event that an input makes available, at the moment it arrives. -/
def Input.arrival? : Input → Option Event
  | .callback cb => cb.event?
  | .update => none

/-- The arrivals of each stretch between two `update()` calls, beginning with
those of `frame`, in order of arrival. What arrives after the last `update()`
is in no frame. -/
def framesFrom (frame : List Event) : List Input → List (List Event)
  | [] => []
  | .callback cb :: inputs => framesFrom (frame ++ cb.event?.toList) inputs
  | .update :: inputs => frame :: framesFrom [] inputs

def frames (inputs : List Input) : List (List Event) := framesFrom [] inputs

/-- The events of `frame` that go through `q`, in order of arrival. -/
def ofQueue (q : Queue) (frame : List Event) : List Event :=
  frame.filter fun e => e.queue = q

/-- The order in which `update()` hands over a frame. -/
def batched (frame : List Event) : List Event :=
  ofQueue .beat frame ++ ofQueue .deviceFound frame ++ ofQueue .deviceLost frame ++
    ofQueue .deviceUpdate frame ++ ofQueue .masterChanged frame

theorem mem_batched {e : Event} {frame : List Event} : e ∈ batched frame ↔ e ∈ frame := by
  cases e <;> simp [batched, ofQueue, Event.queue]

/-- The frames, read one after the other, are all arrivals. -/
theorem flatten_framesFrom (frame : List Event) (inputs : List Input) :
    (framesFrom frame (inputs ++ [.update])).flatten =
      frame ++ inputs.filterMap Input.arrival? := by
  induction inputs generalizing frame with
  | nil => simp [framesFrom]
  | cons input inputs ih =>
      cases input with
      | callback cb =>
          simp only [List.cons_append, framesFrom, ih, List.filterMap_cons, Input.arrival?]
          cases cb.event? <;> simp
      | update => simp [framesFrom, ih, List.filterMap_cons, Input.arrival?]

/-- What a session hands to its client is its frames, each in batched order. -/
theorem client_run_eq (self : Session) (frame : List Event)
    (hframe : ∀ q, self.addon.queued q = ofQueue q frame) (inputs : List Input) :
    (self.run inputs).client =
      self.client.handleAll ((framesFrom frame inputs).flatMap batched) := by
  induction inputs generalizing self frame with
  | nil => rfl
  | cons input inputs ih =>
      cases input with
      | callback cb =>
          refine ih (self.step (.callback cb)) (frame ++ cb.event?.toList) fun q => ?_
          rw [Session.step, OfxBeatLink.queued_callback, hframe]
          simp [ofQueue]
      | update =>
          have hempty (q : Queue) : (self.step .update).addon.queued q = ofQueue q [] := by
            simp [Session.step, ofQueue]
          have hhanded : self.addon.update.2 = batched frame := by
            rw [OfxBeatLink.update_handed]
            simp only [hframe, batched]
          have hrest := ih (self.step .update) [] hempty
          simp only [Session.run, List.foldl_cons] at hrest ⊢
          rw [hrest, framesFrom, List.flatMap_cons, OfApp.handleAll_append, ← hhanded]
          rfl

end DjLink
