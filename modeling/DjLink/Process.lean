import Mathlib.Logic.Function.Iterate
import DjLink.Singletons

/-!
A process: any number of `ofxBeatLink` objects over one set of singletons. The
program calls methods on the objects, the library announces to whatever is
registered with it. An object that was destroyed takes no calls; a callback
that still captures it runs on nothing.

For every method there is one account of what it does to its object and to
each of the singletons. The modules on registration, on the life of the
`VirtualCdj` listeners and on sharing rest on these and do not look into the
methods again.
-/

namespace DjLink

open Beatlink

/-- The calls that reach the singletons and change something, each with the
outcomes of the library calls that it makes. -/
inductive Call where
  | start (deviceStarted beatStarted : Bool)
  | stop
  | startVirtualCdj (deviceNumber : Int) (started : Bool) (assigned : UInt8)
  | stopVirtualCdj
  | destroy

namespace OfxBeatLink

/-- The object and the singletons after a call. -/
def call (self : OfxBeatLink) (this : ObjectId) (lib : Singletons) :
    Call → Option OfxBeatLink × Singletons
  | .start deviceStarted beatStarted =>
      let (_, self, lib) := self.start this lib deviceStarted beatStarted
      (some self, lib)
  | .stop =>
      let (self, lib) := self.stop lib
      (some self, lib)
  | .startVirtualCdj deviceNumber started assigned =>
      let (_, self, lib) := self.startVirtualCdj this lib deviceNumber started assigned
      (some self, lib)
  | .stopVirtualCdj =>
      let (self, lib) := self.stopVirtualCdj lib
      (some self, lib)
  | .destroy => (none, self.destroy lib)

end OfxBeatLink

structure Process where
  objects : ObjectId → Option OfxBeatLink
  lib : Singletons

namespace Process

def step (p : Process) (this : ObjectId) (c : Call) : Process :=
  match p.objects this with
  | none => p
  | some self =>
      let (self, lib) := self.call this p.lib c
      { objects := Function.update p.objects this self, lib := lib }

/-- A sequence of calls on any objects. -/
def run (p : Process) (calls : List (ObjectId × Call)) : Process :=
  calls.foldl (fun p c => p.step c.1 c.2) p

/-- A sequence of calls on one object. -/
def runOn (p : Process) (this : ObjectId) (calls : List Call) : Process :=
  calls.foldl (fun p c => p.step this c) p

/-- What `isRunning()` of an object returns; a destroyed object reports
nothing. -/
def isRunning (p : Process) (this : ObjectId) : Bool :=
  (p.objects this).any OfxBeatLink.isRunning

def isVirtualCdjRunning (p : Process) (this : ObjectId) : Bool :=
  (p.objects this).any OfxBeatLink.isVirtualCdjRunning

/-- A callback of the object that a listener captured. -/
def runCallback (p : Process) (cb : Callback) (captured : ObjectId) : Process :=
  { p with
    objects := Function.update p.objects captured
      ((p.objects captured).map fun self => self.callback cb) }

end Process

/-- Whom the library tells of an event of the network, in the order of
registration. -/
def Singletons.listeners (lib : Singletons) : Callback → List ObjectId
  | .onBeat _ => lib.beatFinder.beatListeners
  | .onDeviceFound _ => lib.deviceFinder.deviceFoundListeners
  | .onDeviceLost _ => lib.deviceFinder.deviceLostListeners
  | .deviceUpdate _ _ => lib.virtualCdj.updateListeners.map ListenerPtr.captured
  | .masterChanged _ _ => lib.virtualCdj.masterListeners.map ListenerPtr.captured

/-- The library announces something to all that are registered for it. -/
def Process.announce (p : Process) (cb : Callback) : Process :=
  (p.lib.listeners cb).foldl (fun p captured => p.runCallback cb captured) p

/-- The object was just constructed: its fields have their defaults, nothing
that is registered captured it, and every listener of the others has an address
that will not be used again. -/
structure Process.Fresh (p : Process) (this : ObjectId) : Prop where
  object : p.objects this = some {}
  found : this ∉ p.lib.deviceFinder.deviceFoundListeners
  lost : this ∉ p.lib.deviceFinder.deviceLostListeners
  beat : this ∉ p.lib.beatFinder.beatListeners
  update : ∀ l ∈ p.lib.virtualCdj.updateListeners,
    l.captured ≠ this ∧ l.address < p.lib.nextAddress
  master : ∀ l ∈ p.lib.virtualCdj.masterListeners,
    l.captured ≠ this ∧ l.address < p.lib.nextAddress

/-- Objects that were just constructed, over untouched singletons. -/
def Process.initial : Process where
  objects := fun _ => some {}
  lib := {}

theorem Process.initial_fresh (this : ObjectId) : Process.initial.Fresh this where
  object := rfl
  found := List.not_mem_nil
  lost := List.not_mem_nil
  beat := List.not_mem_nil
  update := fun _ h => absurd h List.not_mem_nil
  master := fun _ h => absurd h List.not_mem_nil

/-! ### What each method does -/

namespace OfxBeatLink

/-- `start()` runs the object when both finders start. -/
@[simp] theorem start_object (self : OfxBeatLink) (this : ObjectId) (lib : Singletons)
    (d b : Bool) :
    (self.start this lib d b).2.1 = { self with running := self.running || (d && b) } := by
  obtain ⟨running⟩ := self
  cases running <;> cases d <;> cases b <;> rfl

theorem start_of_running (self : OfxBeatLink) (this : ObjectId) (lib : Singletons) (d b : Bool)
    (h : self.running = true) : self.start this lib d b = (true, self, lib) := by
  simp [start, h]

/-- A `start()` of an object that is not running registers its three callbacks,
whatever becomes of the finders. -/
theorem start_listeners (self : OfxBeatLink) (this : ObjectId) (lib : Singletons) (d b : Bool) :
    let lib' := (self.start this lib d b).2.2
    let added := if self.running then [] else [this]
    lib'.deviceFinder.deviceFoundListeners = lib.deviceFinder.deviceFoundListeners ++ added ∧
      lib'.deviceFinder.deviceLostListeners = lib.deviceFinder.deviceLostListeners ++ added ∧
      lib'.beatFinder.beatListeners = lib.beatFinder.beatListeners ++ added := by
  obtain ⟨running⟩ := self
  cases running
  · cases d <;> cases b <;> exact ⟨rfl, rfl, rfl⟩
  · simp [start]

/-- What `start()` makes of the two finders: a failing `BeatFinder` takes the
`DeviceFinder` down with it. -/
theorem start_finders (self : OfxBeatLink) (this : ObjectId) (lib : Singletons) (d b : Bool) :
    let lib' := (self.start this lib d b).2.2
    (lib'.deviceFinder.running = if self.running then lib.deviceFinder.running
      else if d then b else lib.deviceFinder.running) ∧
    lib'.beatFinder.running = (lib.beatFinder.running || (!self.running && d && b)) := by
  obtain ⟨running⟩ := self
  cases running
  · cases d <;> cases b <;> simp [start, DeviceFinder.addDeviceFoundListener,
      DeviceFinder.addDeviceLostListener, DeviceFinder.start, DeviceFinder.stop,
      BeatFinder.addBeatListener, BeatFinder.start]
  · simp [start]

@[simp] theorem start_virtualCdj (self : OfxBeatLink) (this : ObjectId) (lib : Singletons)
    (d b : Bool) :
    (self.start this lib d b).2.2.virtualCdj = lib.virtualCdj ∧
      (self.start this lib d b).2.2.nextAddress = lib.nextAddress := by
  obtain ⟨running⟩ := self
  cases running <;> cases d <;> cases b <;> exact ⟨rfl, rfl⟩

@[simp] theorem stop_object (self : OfxBeatLink) (lib : Singletons) :
    (self.stop lib).1 = { self with running := false } := by
  obtain ⟨running⟩ := self
  cases running <;> rfl

/-- `stop()` of a running object stops both finders and leaves no callback of
anyone registered with them. -/
theorem stop_finders (self : OfxBeatLink) (lib : Singletons) :
    (self.stop lib).2 =
      if self.running then { lib with deviceFinder := {}, beatFinder := {} } else lib := by
  obtain ⟨running⟩ := self
  cases running <;> rfl

@[simp] theorem stop_virtualCdj (self : OfxBeatLink) (lib : Singletons) :
    (self.stop lib).2.virtualCdj = lib.virtualCdj ∧
      (self.stop lib).2.nextAddress = lib.nextAddress := by
  rw [stop_finders]
  cases self.running <;> exact ⟨rfl, rfl⟩

section VirtualCdj

variable (self : OfxBeatLink) (this : ObjectId) (lib : Singletons)
variable (deviceNumber : Int) (started : Bool) (assigned : UInt8)

theorem startVirtualCdj_of_running (h : self.virtualCdjRunning = true) :
    self.startVirtualCdj this lib deviceNumber started assigned = (true, self, lib) := by
  simp [startVirtualCdj, h]

/-- A `startVirtualCdj` that succeeds registers two new listeners and keeps
their pointers. -/
theorem startVirtualCdj_of_started (h : self.virtualCdjRunning = false) :
    let update : ListenerPtr := ⟨lib.nextAddress, this⟩
    let master : ListenerPtr := ⟨lib.nextAddress + 1, this⟩
    let result := self.startVirtualCdj this lib deviceNumber true assigned
    result.1 = true ∧
      result.2.1 = { self with
        deviceUpdateListener := some update
        masterListener := some master
        virtualCdjRunning := true } ∧
      result.2.2.virtualCdj.updateListeners = lib.virtualCdj.updateListeners ++ [update] ∧
      result.2.2.virtualCdj.masterListeners = lib.virtualCdj.masterListeners ++ [master] ∧
      result.2.2.virtualCdj.running = true := by
  by_cases hnumber : deviceNumber = 0 <;> cases hrunning : lib.virtualCdj.running <;>
    simp [startVirtualCdj, h, hnumber, hrunning, Singletons.makeShared, VirtualCdj.setDeviceName,
      VirtualCdj.addUpdateListener, VirtualCdj.addMasterListener, VirtualCdj.start]

/-- A `startVirtualCdj` that fails removes its two listeners by address. -/
theorem startVirtualCdj_of_failed (h : self.virtualCdjRunning = false) :
    let update : ListenerPtr := ⟨lib.nextAddress, this⟩
    let master : ListenerPtr := ⟨lib.nextAddress + 1, this⟩
    let result := self.startVirtualCdj this lib deviceNumber false assigned
    result.1 = false ∧
      result.2.1 = { self with deviceUpdateListener := none, masterListener := none } ∧
      result.2.2.virtualCdj.updateListeners =
        (lib.virtualCdj.updateListeners ++ [update]).filter
          (fun l => l.address ≠ update.address) ∧
      result.2.2.virtualCdj.masterListeners =
        (lib.virtualCdj.masterListeners ++ [master]).filter
          (fun l => l.address ≠ master.address) ∧
      result.2.2.virtualCdj.running = lib.virtualCdj.running := by
  by_cases hnumber : deviceNumber = 0
  · simp only [startVirtualCdj, h, hnumber]
    exact ⟨rfl, rfl, rfl, rfl, rfl⟩
  · simp only [startVirtualCdj, h, if_neg hnumber]
    exact ⟨rfl, rfl, rfl, rfl, rfl⟩

/-- A request is granted to an object with `VirtualCdj` running, and otherwise
when `VirtualCdj` starts. -/
theorem startVirtualCdj_result :
    (self.startVirtualCdj this lib deviceNumber started assigned).1 =
      (self.virtualCdjRunning || started) := by
  cases hrunning : self.virtualCdjRunning with
  | true =>
      rw [startVirtualCdj_of_running self this lib deviceNumber started assigned hrunning]
      rfl
  | false =>
      cases started with
      | true => exact (startVirtualCdj_of_started self this lib deviceNumber assigned hrunning).1
      | false => exact (startVirtualCdj_of_failed self this lib deviceNumber assigned hrunning).1

/-- A request is granted exactly if the object reports afterwards that
`VirtualCdj` runs. -/
theorem startVirtualCdj_virtualCdjRunning :
    (self.startVirtualCdj this lib deviceNumber started assigned).2.1.virtualCdjRunning =
      (self.startVirtualCdj this lib deviceNumber started assigned).1 := by
  rw [startVirtualCdj_result]
  cases hrunning : self.virtualCdjRunning with
  | true =>
      rw [startVirtualCdj_of_running self this lib deviceNumber started assigned hrunning]
      exact hrunning
  | false =>
      cases started with
      | true =>
          rw [(startVirtualCdj_of_started self this lib deviceNumber assigned hrunning).2.1]
          rfl
      | false =>
          rw [(startVirtualCdj_of_failed self this lib deviceNumber assigned hrunning).2.1]
          exact hrunning

/-- A start of `VirtualCdj` when it does not run gives it its number. -/
theorem startVirtualCdj_deviceNumber (h : self.virtualCdjRunning = false)
    (hidle : lib.virtualCdj.running = false) :
    (self.startVirtualCdj this lib deviceNumber true assigned).2.2.virtualCdj.deviceNumber =
      if deviceNumber = 0 then assigned else UInt8.ofInt deviceNumber := by
  by_cases hnumber : deviceNumber = 0 <;>
    simp [startVirtualCdj, h, hnumber, hidle, Singletons.makeShared, VirtualCdj.setDeviceName,
      VirtualCdj.addUpdateListener, VirtualCdj.addMasterListener, VirtualCdj.start]

/-- A start that fails has touched the name and the two lists only. -/
theorem startVirtualCdj_virtualCdj_of_failed (h : self.virtualCdjRunning = false) :
    ∃ updates masters,
      (self.startVirtualCdj this lib deviceNumber false assigned).2.2.virtualCdj =
        { lib.virtualCdj with
          deviceName := self.virtualCdjName
          updateListeners := updates
          masterListeners := masters } := by
  by_cases hnumber : deviceNumber = 0
  · simp only [startVirtualCdj, h, hnumber]
    exact ⟨_, _, rfl⟩
  · simp only [startVirtualCdj, h, if_neg hnumber]
    exact ⟨_, _, rfl⟩

/-- The finders have no part in it, and two addresses are used up. -/
theorem startVirtualCdj_finders :
    let result := self.startVirtualCdj this lib deviceNumber started assigned
    result.2.1.running = self.running ∧ result.2.2.deviceFinder = lib.deviceFinder ∧
      result.2.2.beatFinder = lib.beatFinder ∧
      lib.nextAddress ≤ result.2.2.nextAddress := by
  cases hrunning : self.virtualCdjRunning <;> by_cases hnumber : deviceNumber = 0 <;>
    cases started <;> simp [startVirtualCdj, hrunning, hnumber, Singletons.makeShared,
      VirtualCdj.start] <;> omega

theorem startVirtualCdj_nextAddress (h : self.virtualCdjRunning = false) :
    (self.startVirtualCdj this lib deviceNumber started assigned).2.2.nextAddress =
      lib.nextAddress + 2 := by
  by_cases hnumber : deviceNumber = 0 <;> cases started <;>
    simp [startVirtualCdj, h, hnumber, Singletons.makeShared, VirtualCdj.start]

/-- `stopVirtualCdj()` of an object with `VirtualCdj` running gives up both
pointers, removes what they point at and stops `VirtualCdj`. -/
theorem stopVirtualCdj_of_running (h : self.virtualCdjRunning = true) :
    let removed (listener : Option ListenerPtr) (listeners : List ListenerPtr) :=
      match listener with
      | some listener => listeners.filter fun l => l.address ≠ listener.address
      | none => listeners
    let result := self.stopVirtualCdj lib
    result.1 = { self with
        deviceUpdateListener := none
        masterListener := none
        virtualCdjRunning := false } ∧
      result.2 = { lib with
        virtualCdj := { lib.virtualCdj with
          updateListeners := removed self.deviceUpdateListener lib.virtualCdj.updateListeners
          masterListeners := removed self.masterListener lib.virtualCdj.masterListeners
          running := false } } := by
  obtain ⟨running, virtualCdjRunning, name, beatQueue, foundQueue, lostQueue, latestBeats, lastBeat,
    updateQueue, masterQueue, latestStatuses, update, master⟩ := self
  obtain rfl : virtualCdjRunning = true := h
  cases update <;> cases master <;> exact ⟨rfl, rfl⟩

theorem stopVirtualCdj_of_not_running (h : self.virtualCdjRunning = false) :
    self.stopVirtualCdj lib = (self, lib) := by
  simp [stopVirtualCdj, h]

theorem stopVirtualCdj_finders :
    (self.stopVirtualCdj lib).1.running = self.running ∧
      (self.stopVirtualCdj lib).2.deviceFinder = lib.deviceFinder ∧
      (self.stopVirtualCdj lib).2.beatFinder = lib.beatFinder ∧
      (self.stopVirtualCdj lib).2.nextAddress = lib.nextAddress := by
  cases hrunning : self.virtualCdjRunning with
  | false => simp [stopVirtualCdj_of_not_running self lib hrunning]
  | true =>
      obtain ⟨hobject, hlib⟩ := stopVirtualCdj_of_running self lib hrunning
      rw [hobject, hlib]
      exact ⟨rfl, rfl, rfl, rfl⟩

/-- The destructor is `stopVirtualCdj()` and then `stop()`. -/
theorem destroy_eq :
    self.destroy lib =
      if self.running then
        { (self.stopVirtualCdj lib).2 with deviceFinder := {}, beatFinder := {} }
      else (self.stopVirtualCdj lib).2 := by
  have hdestroy : self.destroy lib =
      ((self.stopVirtualCdj lib).1.stop (self.stopVirtualCdj lib).2).2 := rfl
  rw [hdestroy, stop_finders, (stopVirtualCdj_finders self lib).1]

/-- After `destroy` nothing of `VirtualCdj` differs from after
`stopVirtualCdj()`. -/
theorem destroy_virtualCdj :
    (self.destroy lib).virtualCdj = (self.stopVirtualCdj lib).2.virtualCdj := by
  rw [destroy_eq]
  cases self.running <;> rfl

end VirtualCdj

/-- What `isRunning()` returns after a call, from what it returned before. -/
theorem call_isRunning (self : OfxBeatLink) (this : ObjectId) (lib : Singletons) (c : Call) :
    (self.call this lib c).1.any isRunning =
      match c with
      | .start d b => self.running || (d && b)
      | .startVirtualCdj _ _ _ => self.running
      | .stopVirtualCdj => self.running
      | .stop => false
      | .destroy => false := by
  cases c with
  | start d b => simp [call, isRunning]
  | stop => simp [call, isRunning]
  | startVirtualCdj k s a =>
      simpa [call, isRunning] using (self.startVirtualCdj_finders this lib k s a).1
  | stopVirtualCdj => simpa [call, isRunning] using (self.stopVirtualCdj_finders lib).1
  | destroy => rfl

/-- What `isVirtualCdjRunning()` returns after a call. -/
theorem call_isVirtualCdjRunning (self : OfxBeatLink) (this : ObjectId) (lib : Singletons)
    (c : Call) :
    (self.call this lib c).1.any isVirtualCdjRunning =
      match c with
      | .startVirtualCdj _ s _ => self.virtualCdjRunning || s
      | .start _ _ => self.virtualCdjRunning
      | .stop => self.virtualCdjRunning
      | .stopVirtualCdj => false
      | .destroy => false := by
  cases c with
  | start d b => simp [call, isVirtualCdjRunning]
  | stop => simp [call, isVirtualCdjRunning]
  | startVirtualCdj k s a =>
      simp [call, isVirtualCdjRunning, startVirtualCdj_virtualCdjRunning, startVirtualCdj_result]
  | stopVirtualCdj =>
      cases hrunning : self.virtualCdjRunning with
      | true => simp [call, isVirtualCdjRunning, (stopVirtualCdj_of_running self lib hrunning).1]
      | false =>
          simp [call, isVirtualCdjRunning, stopVirtualCdj_of_not_running self lib hrunning, hrunning]
  | destroy => rfl

end OfxBeatLink

namespace Process

theorem isRunning_of_some {p : Process} {this : ObjectId} {self : OfxBeatLink}
    (h : p.objects this = some self) : p.isRunning this = self.running := by
  simp [isRunning, h, OfxBeatLink.isRunning]

theorem isVirtualCdjRunning_of_some {p : Process} {this : ObjectId} {self : OfxBeatLink}
    (h : p.objects this = some self) : p.isVirtualCdjRunning this = self.virtualCdjRunning := by
  simp [isVirtualCdjRunning, h, OfxBeatLink.isVirtualCdjRunning]

theorem step_of_some {p : Process} {this : ObjectId} {self : OfxBeatLink}
    (h : p.objects this = some self) (c : Call) :
    p.step this c =
      { objects := Function.update p.objects this (self.call this p.lib c).1
        lib := (self.call this p.lib c).2 } := by
  simp [step, h]

theorem step_of_none {p : Process} {this : ObjectId} (h : p.objects this = none) (c : Call) :
    p.step this c = p := by
  simp [step, h]

theorem step_lib {p : Process} {this : ObjectId} {self : OfxBeatLink}
    (h : p.objects this = some self) (c : Call) :
    (p.step this c).lib = (self.call this p.lib c).2 := by
  rw [step_of_some h]

theorem step_objects_self {p : Process} {this : ObjectId} {self : OfxBeatLink}
    (h : p.objects this = some self) (c : Call) :
    (p.step this c).objects this = (self.call this p.lib c).1 := by
  rw [step_of_some h]
  exact Function.update_self ..

/-- A call leaves the other objects alone. -/
theorem step_objects_of_ne {p : Process} {this other : ObjectId} (h : other ≠ this) (c : Call) :
    (p.step this c).objects other = p.objects other := by
  cases hthis : p.objects this with
  | none => rw [step_of_none hthis]
  | some self =>
      rw [step_of_some hthis]
      exact Function.update_of_ne h _ _

theorem runOn_concat (p : Process) (this : ObjectId) (calls : List Call) (c : Call) :
    p.runOn this (calls ++ [c]) = (p.runOn this calls).step this c := by
  rw [runOn, List.foldl_concat, runOn]

theorem runCallback_self (p : Process) (cb : Callback) (this : ObjectId) :
    (p.runCallback cb this).objects this =
      (p.objects this).map fun self => self.callback cb :=
  Function.update_self ..

theorem runCallback_of_ne {this captured : ObjectId} (h : captured ≠ this) (p : Process)
    (cb : Callback) : (p.runCallback cb captured).objects this = p.objects this :=
  Function.update_of_ne (Ne.symm h) ..

theorem foldl_runCallback_objects (cb : Callback) (this : ObjectId) (listeners : List ObjectId)
    (p : Process) :
    (listeners.foldl (fun p captured => p.runCallback cb captured) p).objects this =
      (p.objects this).map
        (fun self => (fun self => self.callback cb)^[listeners.count this] self) := by
  induction listeners generalizing p with
  | nil => simp
  | cons captured listeners ih =>
      rw [List.foldl_cons, ih]
      by_cases h : captured = this
      · subst h
        rw [runCallback_self, Option.map_map, List.count_cons_self]
        rfl
      · rw [runCallback_of_ne h, List.count_cons_of_ne h]

/-- An announcement runs on an object once for every listener that captured
it. -/
theorem announce_objects (p : Process) (cb : Callback) (this : ObjectId) :
    (p.announce cb).objects this =
      (p.objects this).map
        (fun self => (fun self => self.callback cb)^[(p.lib.listeners cb).count this] self) :=
  foldl_runCallback_objects cb this _ p

@[simp] theorem announce_lib (p : Process) (cb : Callback) : (p.announce cb).lib = p.lib := by
  rw [announce]
  induction p.lib.listeners cb generalizing p with
  | nil => rfl
  | cons captured listeners ih => exact ih (p.runCallback cb captured)

end Process

end DjLink
