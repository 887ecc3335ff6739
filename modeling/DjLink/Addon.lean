import DjLink.Data

/-!
The `ofxBeatLink` object and the methods that run without the library's
singletons: the callbacks that the library's threads run, `update()` and the
getters. The build is the one with `VirtualCdj`.

Every callback is a sequence of critical sections, each under one mutex. The
methods below are the callbacks run in one piece; `Callback.sections` is the
same code cut at its `lock_guard` regions, for the account of interleavings,
and `foldl_sections` says that the pieces make up the whole.
-/

namespace DjLink

open Beatlink

/-- The five public `ofEvent`s, with what a listener is handed. -/
inductive Event where
  | beat (beat : OfxBeatLinkBeat)
  | deviceFound (device : OfxBeatLinkDevice)
  | deviceLost (device : OfxBeatLinkDevice)
  | deviceUpdate (status : OfxBeatLinkCdjStatus)
  | masterChanged (status : OfxBeatLinkCdjStatus)

/-- The five event queues, in the order in which `update()` drains them. -/
inductive Queue where
  | beat | deviceFound | deviceLost | deviceUpdate | masterChanged
  deriving DecidableEq

def Event.queue : Event → Queue
  | .beat _ => .beat
  | .deviceFound _ => .deviceFound
  | .deviceLost _ => .deviceLost
  | .deviceUpdate _ => .deviceUpdate
  | .masterChanged _ => .masterChanged

/-- The `std::mutex` members. -/
inductive Mutex where
  | beatQueue | deviceFoundQueue | deviceLostQueue | latestBeats
  | deviceUpdateQueue | masterChangedQueue | latestStatuses
  deriving DecidableEq

def Queue.mutex : Queue → Mutex
  | .beat => .beatQueue
  | .deviceFound => .deviceFoundQueue
  | .deviceLost => .deviceLostQueue
  | .deviceUpdate => .deviceUpdateQueue
  | .masterChanged => .masterChangedQueue

theorem Queue.mutex_injective {q r : Queue} (h : q.mutex = r.mutex) : q = r := by
  cases q <;> cases r <;> simp_all [Queue.mutex]

structure OfxBeatLink where
  running : Bool := false
  virtualCdjRunning : Bool := false
  virtualCdjName : String := "ofxBeatLink"
  beatQueue : List OfxBeatLinkBeat := []
  deviceFoundQueue : List OfxBeatLinkDevice := []
  deviceLostQueue : List OfxBeatLinkDevice := []
  latestBeats : IntMap OfxBeatLinkBeat := ∅
  lastBeat : OfxBeatLinkBeat := {}
  deviceUpdateQueue : List OfxBeatLinkCdjStatus := []
  masterChangedQueue : List OfxBeatLinkCdjStatus := []
  latestStatuses : IntMap OfxBeatLinkCdjStatus := ∅
  deviceUpdateListener : Option ListenerPtr := none
  masterListener : Option ListenerPtr := none

/-- What the library's threads may call. The two last are the lambdas that
`startVirtualCdj` registers; `now` is the clock during the conversion, and
`none` is the null pointer that announces that there is no master. -/
inductive Callback where
  | onBeat (beat : Beat)
  | onDeviceFound (device : DeviceAnnouncement)
  | onDeviceLost (device : DeviceAnnouncement)
  | deviceUpdate (now : Nat) (update : DeviceUpdate)
  | masterChanged (now : Nat) (update : Option DeviceUpdate)

namespace OfxBeatLink

/-! ### Callbacks -/

def onBeat (self : OfxBeatLink) (beat : Beat) : OfxBeatLink :=
  let ofBeat := convertBeat beat
  let self := { self with
    latestBeats := self.latestBeats.insert ofBeat.deviceNumber ofBeat
    lastBeat := ofBeat }
  { self with beatQueue := self.beatQueue ++ [ofBeat] }

def onDeviceFound (self : OfxBeatLink) (device : DeviceAnnouncement) : OfxBeatLink :=
  let ofDevice := convertDevice device
  { self with deviceFoundQueue := self.deviceFoundQueue ++ [ofDevice] }

def onDeviceLost (self : OfxBeatLink) (device : DeviceAnnouncement) : OfxBeatLink :=
  let ofDevice := convertDevice device
  let self := { self with latestBeats := self.latestBeats.erase ofDevice.deviceNumber }
  { self with deviceLostQueue := self.deviceLostQueue ++ [ofDevice] }

/-- The lambda behind `deviceUpdateListener_`. -/
def deviceUpdate (self : OfxBeatLink) (now : Nat) (update : DeviceUpdate) : OfxBeatLink :=
  match update.asCdjStatus with
  | some cdjStatus =>
      let ofStatus := convertCdjStatus now cdjStatus
      let self := { self with
        latestStatuses := self.latestStatuses.insert ofStatus.deviceNumber ofStatus }
      { self with deviceUpdateQueue := self.deviceUpdateQueue ++ [ofStatus] }
  | none => self

/-- The lambda behind `masterListener_`. -/
def masterChanged (self : OfxBeatLink) (now : Nat) (update : Option DeviceUpdate) :
    OfxBeatLink :=
  match update with
  | some update =>
      match update.asCdjStatus with
      | some cdjStatus =>
          let ofStatus := convertCdjStatus now cdjStatus
          { self with masterChangedQueue := self.masterChangedQueue ++ [ofStatus] }
      | none => self
  | none => self

def callback (self : OfxBeatLink) : Callback → OfxBeatLink
  | .onBeat beat => self.onBeat beat
  | .onDeviceFound device => self.onDeviceFound device
  | .onDeviceLost device => self.onDeviceLost device
  | .deviceUpdate now update => self.deviceUpdate now update
  | .masterChanged now update => self.masterChanged now update

/-! ### Delivery -/

/-- `while (!queue.empty()) { x = queue.front(); queue.pop(); ofNotifyEvent(e, x); }`,
with the events handed over so far. -/
def drain {α : Type} (event : α → Event) : List α → List Event → List α × List Event
  | [], handed => ([], handed)
  | x :: queue, handed => drain event queue (handed ++ [event x])

/-- `update()` on its own, with the events in the order of their notification. -/
def update (self : OfxBeatLink) : OfxBeatLink × List Event :=
  let (beatQueue, handed) := drain .beat self.beatQueue []
  let (deviceFoundQueue, handed) := drain .deviceFound self.deviceFoundQueue handed
  let (deviceLostQueue, handed) := drain .deviceLost self.deviceLostQueue handed
  let (deviceUpdateQueue, handed) := drain .deviceUpdate self.deviceUpdateQueue handed
  let (masterChangedQueue, handed) := drain .masterChanged self.masterChangedQueue handed
  ({ self with
      beatQueue := beatQueue
      deviceFoundQueue := deviceFoundQueue
      deviceLostQueue := deviceLostQueue
      deviceUpdateQueue := deviceUpdateQueue
      masterChangedQueue := masterChangedQueue }, handed)

/-! ### Getters -/

def isRunning (self : OfxBeatLink) : Bool := self.running

def isVirtualCdjRunning (self : OfxBeatLink) : Bool := self.virtualCdjRunning

def setVirtualCdjDeviceName (self : OfxBeatLink) (name : String) : OfxBeatLink :=
  { self with virtualCdjName := name }

/-- `getLatestBeat(deviceNumber)`. -/
def getLatestBeat (self : OfxBeatLink) (deviceNumber : Int) : OfxBeatLinkBeat :=
  match self.latestBeats[deviceNumber]? with
  | some beat => beat
  | none => {}

/-- `getLatestBeat()`, the overload without a device. -/
def getLatestBeatAny (self : OfxBeatLink) : OfxBeatLinkBeat := self.lastBeat

def getCurrentStatuses (self : OfxBeatLink) : List OfxBeatLinkCdjStatus :=
  self.latestStatuses.toList.map fun entry => entry.2

def getStatusFor (self : OfxBeatLink) (deviceNumber : Int) : Option OfxBeatLinkCdjStatus :=
  self.latestStatuses[deviceNumber]?

/-! ### The queues as event sequences -/

/-- What `queue` holds, as the events it will notify. -/
def queued (self : OfxBeatLink) : Queue → List Event
  | .beat => self.beatQueue.map .beat
  | .deviceFound => self.deviceFoundQueue.map .deviceFound
  | .deviceLost => self.deviceLostQueue.map .deviceLost
  | .deviceUpdate => self.deviceUpdateQueue.map .deviceUpdate
  | .masterChanged => self.masterChangedQueue.map .masterChanged

theorem drain_eq {α : Type} (event : α → Event) (queue : List α) (handed : List Event) :
    drain event queue handed = ([], handed ++ queue.map event) := by
  induction queue generalizing handed with
  | nil => simp [drain]
  | cons x queue ih => simp [drain, ih]

/-- `update()` hands over the five queues one after the other. -/
theorem update_handed (self : OfxBeatLink) :
    self.update.2 = self.queued .beat ++ self.queued .deviceFound ++
      self.queued .deviceLost ++ self.queued .deviceUpdate ++ self.queued .masterChanged := by
  simp [update, drain_eq, queued]

@[simp] theorem queued_update (self : OfxBeatLink) (q : Queue) :
    self.update.1.queued q = [] := by
  cases q <;> simp [update, drain_eq, queued]

end OfxBeatLink

/-! ### Critical sections -/

/-- The `lock_guard` regions of the callbacks. -/
inductive Section where
  | storeBeat (ofBeat : OfxBeatLinkBeat)
  | eraseBeat (deviceNumber : Int)
  | storeStatus (ofStatus : OfxBeatLinkCdjStatus)
  | push (event : Event)

def Section.mutex : Section → Mutex
  | .storeBeat _ => .latestBeats
  | .eraseBeat _ => .latestBeats
  | .storeStatus _ => .latestStatuses
  | .push event => event.queue.mutex

/-- The event that a critical section queues. -/
def Section.event? : Section → Option Event
  | .push event => some event
  | .storeBeat _ => none
  | .eraseBeat _ => none
  | .storeStatus _ => none

namespace OfxBeatLink

/-- `queue.push(event)` on the queue of the event. -/
def push (self : OfxBeatLink) : Event → OfxBeatLink
  | .beat beat => { self with beatQueue := self.beatQueue ++ [beat] }
  | .deviceFound device => { self with deviceFoundQueue := self.deviceFoundQueue ++ [device] }
  | .deviceLost device => { self with deviceLostQueue := self.deviceLostQueue ++ [device] }
  | .deviceUpdate status => { self with deviceUpdateQueue := self.deviceUpdateQueue ++ [status] }
  | .masterChanged status =>
      { self with masterChangedQueue := self.masterChangedQueue ++ [status] }

/-- `queue.front()` and `queue.pop()`, when `queue` is not empty. -/
def pop (self : OfxBeatLink) : Queue → Option (Event × OfxBeatLink)
  | .beat =>
      match self.beatQueue with
      | [] => none
      | beat :: queue => some (.beat beat, { self with beatQueue := queue })
  | .deviceFound =>
      match self.deviceFoundQueue with
      | [] => none
      | device :: queue => some (.deviceFound device, { self with deviceFoundQueue := queue })
  | .deviceLost =>
      match self.deviceLostQueue with
      | [] => none
      | device :: queue => some (.deviceLost device, { self with deviceLostQueue := queue })
  | .deviceUpdate =>
      match self.deviceUpdateQueue with
      | [] => none
      | status :: queue => some (.deviceUpdate status, { self with deviceUpdateQueue := queue })
  | .masterChanged =>
      match self.masterChangedQueue with
      | [] => none
      | status :: queue =>
          some (.masterChanged status, { self with masterChangedQueue := queue })

/-- The body of a critical section. -/
def runSection (self : OfxBeatLink) : Section → OfxBeatLink
  | .storeBeat ofBeat =>
      { self with
        latestBeats := self.latestBeats.insert ofBeat.deviceNumber ofBeat
        lastBeat := ofBeat }
  | .eraseBeat deviceNumber =>
      { self with latestBeats := self.latestBeats.erase deviceNumber }
  | .storeStatus ofStatus =>
      { self with
        latestStatuses := self.latestStatuses.insert ofStatus.deviceNumber ofStatus }
  | .push event => self.push event

end OfxBeatLink

/-- The critical sections of a callback, in order. An update that is no
`CdjStatus`, or no master, reaches none. -/
def Callback.sections : Callback → List Section
  | .onBeat beat => [.storeBeat (convertBeat beat), .push (.beat (convertBeat beat))]
  | .onDeviceFound device => [.push (.deviceFound (convertDevice device))]
  | .onDeviceLost device =>
      [.eraseBeat (convertDevice device).deviceNumber,
        .push (.deviceLost (convertDevice device))]
  | .deviceUpdate now (.cdjStatus status) =>
      [.storeStatus (convertCdjStatus now status),
        .push (.deviceUpdate (convertCdjStatus now status))]
  | .deviceUpdate _ .other => []
  | .masterChanged now (some (.cdjStatus status)) =>
      [.push (.masterChanged (convertCdjStatus now status))]
  | .masterChanged _ (some .other) => []
  | .masterChanged _ none => []

/-- Run in one piece, the critical sections are the callback. -/
theorem Callback.foldl_sections (cb : Callback) (self : OfxBeatLink) :
    cb.sections.foldl OfxBeatLink.runSection self = self.callback cb := by
  cases cb with
  | onBeat beat => rfl
  | onDeviceFound device => rfl
  | onDeviceLost device => rfl
  | deviceUpdate now update => cases update <;> rfl
  | masterChanged now update =>
      cases update with
      | none => rfl
      | some update => cases update <;> rfl

/-- The event that a callback queues, if it queues one. -/
def Callback.event? : Callback → Option Event
  | .onBeat beat => some (.beat (convertBeat beat))
  | .onDeviceFound device => some (.deviceFound (convertDevice device))
  | .onDeviceLost device => some (.deviceLost (convertDevice device))
  | .deviceUpdate now update =>
      update.asCdjStatus.map fun status => .deviceUpdate (convertCdjStatus now status)
  | .masterChanged now update =>
      (update.bind DeviceUpdate.asCdjStatus).map fun status =>
        .masterChanged (convertCdjStatus now status)

namespace OfxBeatLink

theorem queued_push (self : OfxBeatLink) (e : Event) (q : Queue) :
    (self.push e).queued q = self.queued q ++ if e.queue = q then [e] else [] := by
  cases e <;> cases q <;> simp [push, queued, Event.queue]

theorem queued_runSection (self : OfxBeatLink) (sec : Section) (q : Queue) :
    (self.runSection sec).queued q =
      self.queued q ++ sec.event?.toList.filter fun e => e.queue = q := by
  cases sec with
  | storeBeat ofBeat => cases q <;> simp [runSection, queued, Section.event?]
  | eraseBeat deviceNumber => cases q <;> simp [runSection, queued, Section.event?]
  | storeStatus ofStatus => cases q <;> simp [runSection, queued, Section.event?]
  | push event =>
      rw [runSection, queued_push, Section.event?]
      by_cases h : event.queue = q <;> simp [h]

/-- A pop takes the first event of its own queue and touches no other queue. -/
theorem queued_pop {self popped : OfxBeatLink} {q : Queue} {event : Event}
    (h : self.pop q = some (event, popped)) :
    event.queue = q ∧
      ∀ r, self.queued r = (if event.queue = r then [event] else []) ++ popped.queued r := by
  cases q <;> simp only [pop] at h <;> split at h <;> cases h
  all_goals
    refine ⟨rfl, fun r => ?_⟩
    cases r <;> simp_all [queued, Event.queue]

theorem pop_eq_none_iff (self : OfxBeatLink) (q : Queue) :
    self.pop q = none ↔ self.queued q = [] := by
  cases q with
  | beat => cases h : self.beatQueue <;> simp [pop, queued, h]
  | deviceFound => cases h : self.deviceFoundQueue <;> simp [pop, queued, h]
  | deviceLost => cases h : self.deviceLostQueue <;> simp [pop, queued, h]
  | deviceUpdate => cases h : self.deviceUpdateQueue <;> simp [pop, queued, h]
  | masterChanged => cases h : self.masterChangedQueue <;> simp [pop, queued, h]

/-- A pop leaves the caches and the flags alone. -/
theorem pop_frame {self popped : OfxBeatLink} {q : Queue} {event : Event}
    (h : self.pop q = some (event, popped)) :
    popped.latestBeats = self.latestBeats ∧ popped.lastBeat = self.lastBeat ∧
      popped.latestStatuses = self.latestStatuses ∧ popped.running = self.running ∧
      popped.virtualCdjRunning = self.virtualCdjRunning := by
  cases q <;> simp only [pop] at h <;> split at h <;> cases h <;>
    exact ⟨rfl, rfl, rfl, rfl, rfl⟩

/-- No callback touches the flags and the pointers. -/
theorem callback_frame (self : OfxBeatLink) (cb : Callback) :
    (self.callback cb).running = self.running ∧
      (self.callback cb).virtualCdjRunning = self.virtualCdjRunning ∧
      (self.callback cb).deviceUpdateListener = self.deviceUpdateListener ∧
      (self.callback cb).masterListener = self.masterListener := by
  cases cb with
  | onBeat beat => exact ⟨rfl, rfl, rfl, rfl⟩
  | onDeviceFound device => exact ⟨rfl, rfl, rfl, rfl⟩
  | onDeviceLost device => exact ⟨rfl, rfl, rfl, rfl⟩
  | deviceUpdate now update => cases update <;> exact ⟨rfl, rfl, rfl, rfl⟩
  | masterChanged now update => rcases update with _ | _ | _ <;> exact ⟨rfl, rfl, rfl, rfl⟩

/-- A callback appends its event to the event's own queue and to no other. -/
theorem queued_callback (self : OfxBeatLink) (cb : Callback) (q : Queue) :
    (self.callback cb).queued q =
      self.queued q ++ cb.event?.toList.filter fun e => e.queue = q := by
  cases cb with
  | onBeat beat => cases q <;> simp [callback, onBeat, queued, Callback.event?, Event.queue]
  | onDeviceFound device =>
      cases q <;> simp [callback, onDeviceFound, queued, Callback.event?, Event.queue]
  | onDeviceLost device =>
      cases q <;> simp [callback, onDeviceLost, queued, Callback.event?, Event.queue]
  | deviceUpdate now update =>
      cases update <;> cases q <;> simp [callback, deviceUpdate, DeviceUpdate.asCdjStatus,
        queued, Callback.event?, Event.queue]
  | masterChanged now update =>
      rcases update with _ | _ | _ <;> cases q <;> simp [callback, masterChanged,
        DeviceUpdate.asCdjStatus, queued, Callback.event?, Event.queue]

end OfxBeatLink

end DjLink
