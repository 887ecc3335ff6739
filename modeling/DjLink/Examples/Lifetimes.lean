import DjLink.Lifecycle
import DjLink.Registration

/-!
The life of an application that has an `ofxBeatLink` as a member, from
`setup()` to its destruction: `example-virtualcdj`, `example-comprehensive` and
`example-cdjstatus`. All three start the addon and `VirtualCdj` in `setup()`
and stop them in `exit()`; in the first two the key `v` switches `VirtualCdj`
off and on, and the second keeps a flag of its own about it. Of a key press the
model takes what `VirtualCdj::start` would come to.
-/

namespace DjLink

open Beatlink

/-! ### Calls with their results -/

/-- What a call on the object `this` returns, false for a call without a
result. -/
def Process.returns (p : Process) (this : ObjectId) (c : Call) : Bool :=
  match p.objects this with
  | none => false
  | some self =>
      match c with
      | .start d b => (self.start this p.lib d b).1
      | .startVirtualCdj n s a => (self.startVirtualCdj this p.lib n s a).1
      | .stop => false
      | .stopVirtualCdj => false
      | .destroy => false

def Process.setVirtualCdjDeviceName (p : Process) (this : ObjectId) (name : String) : Process :=
  { p with
    objects := Function.update p.objects this
      ((p.objects this).map fun self => self.setVirtualCdjDeviceName name) }

/-- `update()` of the object `this`. -/
def Process.update (p : Process) (this : ObjectId) : Process :=
  { p with
    objects := Function.update p.objects this
      ((p.objects this).map fun self => self.update.1) }

/-- What happens to an application between `setup()` and `exit()`. -/
inductive Happening where
  | announced (cb : Callback)
  | update
  | keyPressed (ch : Char) (started : Bool) (assigned : UInt8)

/-! ### The applications -/

namespace VirtualCdjMonitor

/-- `ofApp::setup` of `example-virtualcdj`. -/
def setup (p : Process) (this : ObjectId) (d b s : Bool) (a : UInt8) : Process :=
  let p := p.setVirtualCdjDeviceName this "ofxBeatLink"
  let p := p.step this (.start d b)
  p.step this (.startVirtualCdj 0 s a)

def keyPressed (p : Process) (this : ObjectId) (ch : Char) (s : Bool) (a : UInt8) : Process :=
  if ch = 'v' ∨ ch = 'V' then
    if p.isVirtualCdjRunning this then p.step this .stopVirtualCdj
    else p.step this (.startVirtualCdj 0 s a)
  else p

def happen (this : ObjectId) (p : Process) : Happening → Process
  | .announced cb => p.announce cb
  | .update => p.update this
  | .keyPressed ch s a => keyPressed p this ch s a

/-- `ofApp::exit`, and the destruction of the application. -/
def exit (p : Process) (this : ObjectId) : Process :=
  ((p.step this .stopVirtualCdj).step this .stop).step this .destroy

end VirtualCdjMonitor

namespace CdjStatus

/-- `ofApp::setup` of `example-cdjstatus`; its keys leave `VirtualCdj` alone. -/
def setup (p : Process) (this : ObjectId) (d b s : Bool) (a : UInt8) : Process :=
  (p.step this (.start d b)).step this (.startVirtualCdj 0 s a)

def happen (this : ObjectId) (p : Process) : Happening → Process
  | .announced cb => p.announce cb
  | .update => p.update this
  | .keyPressed _ _ _ => p

def exit (p : Process) (this : ObjectId) : Process :=
  ((p.step this .stopVirtualCdj).step this .stop).step this .destroy

end CdjStatus

namespace Comprehensive

/-- The process with the flag `virtualCdjRunning` of the application. -/
structure Running where
  process : Process
  virtualCdjRunning : Bool := false

/-- `ofApp::setup` of `example-comprehensive`: `VirtualCdj` is started only
after the addon was. -/
def setup (p : Process) (this : ObjectId) (d b s : Bool) (a : UInt8) : Running :=
  let started := p.returns this (.start d b)
  let p := p.step this (.start d b)
  if started then
    { process := p.step this (.startVirtualCdj 0 s a)
      virtualCdjRunning := p.returns this (.startVirtualCdj 0 s a) }
  else { process := p }

def keyPressed (app : Running) (this : ObjectId) (ch : Char) (s : Bool) (a : UInt8) : Running :=
  if ch = 'v' ∨ ch = 'V' then
    if app.virtualCdjRunning then
      { process := app.process.step this .stopVirtualCdj, virtualCdjRunning := false }
    else
      { process := app.process.step this (.startVirtualCdj 0 s a)
        virtualCdjRunning := app.process.returns this (.startVirtualCdj 0 s a) }
  else app

def happen (this : ObjectId) (app : Running) : Happening → Running
  | .announced cb => { app with process := app.process.announce cb }
  | .update => { app with process := app.process.update this }
  | .keyPressed ch s a => keyPressed app this ch s a

def exit (app : Running) (this : ObjectId) : Process :=
  let p := if app.virtualCdjRunning then app.process.step this .stopVirtualCdj else app.process
  (p.step this .stop).step this .destroy

end Comprehensive

/-! ### An application that is up -/

/-- How often the library calls the addon of an application back for something
that it announces. -/
def Callback.tellings (virtualCdjRunning : Bool) : Callback → ℕ
  | .onBeat _ => 1
  | .onDeviceFound _ => 1
  | .onDeviceLost _ => 1
  | .deviceUpdate _ _ => virtualCdjRunning.toNat
  | .masterChanged _ _ => virtualCdjRunning.toNat

/-- The invariant between `setup()` and `exit()`: the object lives and runs as
its start came out; it is registered with the finders once, and with
`VirtualCdj` as the pointers that it holds. -/
structure Process.Up (p : Process) (this : ObjectId) (others : VirtualCdj) (running : Bool) :
    Prop where
  object : ∃ self, p.objects this = some self ∧ self.running = running
  owned : p.ListenersOwned this others
  registered : p.lib.Registered this 1

namespace Process.Up

variable {p q : Process} {this : ObjectId} {others : VirtualCdj} {running : Bool}
variable {self : OfxBeatLink}

/-- The first `start()`, whatever it comes to. -/
theorem of_start (hobject : p.objects this = some self) (hrunning : self.running = false)
    (howned : p.ListenersOwned this others) (hregistered : p.lib.Registered this 0) (d b : Bool) :
    (p.step this (.start d b)).Up this others (d && b) := by
  refine ⟨⟨(self.start this p.lib d b).2.1, step_objects_self hobject (.start d b), ?_⟩,
    howned.step (.start d b), ?_⟩
  · rw [OfxBeatLink.start_object]
    simp [hrunning]
  · have hcount := hregistered.start self d b
    rw [hrunning] at hcount
    rw [step_lib hobject]
    exact hcount

theorem startVirtualCdj (h : p.Up this others running) (n : Int) (s : Bool) (a : UInt8) :
    (p.step this (.startVirtualCdj n s a)).Up this others running := by
  obtain ⟨⟨self, hobject, hrunning⟩, howned, hregistered⟩ := h
  refine ⟨⟨(self.startVirtualCdj this p.lib n s a).2.1,
    step_objects_self hobject (.startVirtualCdj n s a), ?_⟩,
    howned.step (.startVirtualCdj n s a), ?_⟩
  · exact (self.startVirtualCdj_finders this p.lib n s a).1.trans hrunning
  · rw [step_lib hobject]
    exact hregistered.startVirtualCdj self n s a

theorem stopVirtualCdj (h : p.Up this others running) :
    (p.step this .stopVirtualCdj).Up this others running := by
  obtain ⟨⟨self, hobject, hrunning⟩, howned, hregistered⟩ := h
  refine ⟨⟨(self.stopVirtualCdj p.lib).1, step_objects_self hobject .stopVirtualCdj, ?_⟩,
    howned.step .stopVirtualCdj, ?_⟩
  · exact (self.stopVirtualCdj_finders p.lib).1.trans hrunning
  · rw [step_lib hobject]
    exact hregistered.stopVirtualCdj self

/-- What changes the object but not its flags and pointers, and no singleton,
keeps the invariant and the flag of `VirtualCdj`. -/
theorem of_frame (h : p.Up this others running) {f : OfxBeatLink → OfxBeatLink}
    (hobjects : q.objects this = (p.objects this).map f) (hlib : q.lib = p.lib)
    (hf : ∀ self, (f self).running = self.running ∧
      (f self).virtualCdjRunning = self.virtualCdjRunning ∧
      (f self).deviceUpdateListener = self.deviceUpdateListener ∧
      (f self).masterListener = self.masterListener) :
    q.Up this others running ∧ q.isVirtualCdjRunning this = p.isVirtualCdjRunning this := by
  obtain ⟨⟨self, hobject, hrunning⟩, howned, hregistered⟩ := h
  obtain ⟨hself, hflag, hupdate, hmaster⟩ := hf self
  rw [hobject, Option.map_some] at hobjects
  refine ⟨⟨⟨f self, hobjects, hself.trans hrunning⟩, ?_, ?_⟩, ?_⟩
  · rw [ListenersOwned, hobject] at howned
    rw [ListenersOwned, hobjects, hlib]
    show OfxBeatLink.Owns _ _ _ _
    rw [OfxBeatLink.Owns, hflag, hupdate, hmaster]
    exact howned
  · rwa [hlib]
  · rw [isVirtualCdjRunning_of_some hobjects, isVirtualCdjRunning_of_some hobject, hflag]

theorem announce (h : p.Up this others running) (cb : Callback) :
    (p.announce cb).Up this others running ∧
      (p.announce cb).isVirtualCdjRunning this = p.isVirtualCdjRunning this := by
  refine h.of_frame (announce_objects p cb this) (announce_lib p cb) fun self => ?_
  induction (p.lib.listeners cb).count this generalizing self with
  | zero => exact ⟨rfl, rfl, rfl, rfl⟩
  -- once for each registration
  | succ n ih =>
      obtain ⟨hself, hflag, hupdate, hmaster⟩ := ih (self.callback cb)
      obtain ⟨hself', hflag', hupdate', hmaster'⟩ := self.callback_frame cb
      exact ⟨hself.trans hself', hflag.trans hflag', hupdate.trans hupdate', hmaster.trans hmaster'⟩

theorem update (h : p.Up this others running) :
    (p.update this).Up this others running ∧
      (p.update this).isVirtualCdjRunning this = p.isVirtualCdjRunning this :=
  h.of_frame (Function.update_self ..) rfl fun _ => ⟨rfl, rfl, rfl, rfl⟩

/-- An announcement calls the object back as often as its tellings say. -/
theorem count_listeners (h : p.Up this others running) (cb : Callback) :
    (p.lib.listeners cb).count this = cb.tellings (p.isVirtualCdjRunning this) := by
  obtain ⟨update, master, hlib, -⟩ := h.owned.exists
  have hcaptured (own : Option ListenerPtr) (hown : own.isSome = p.isVirtualCdjRunning this) :
      own.toList.length = (p.isVirtualCdjRunning this).toNat := by
    rw [← hown]
    cases own <;> rfl
  cases cb with
  | onBeat beat => exact h.registered.2.2
  | onDeviceFound device => exact h.registered.1
  | onDeviceLost device => exact h.registered.2.1
  | deviceUpdate now update' =>
      exact hlib.updates.count_captured.trans (hcaptured update hlib.update_isSome)
  | masterChanged now update' =>
      exact hlib.masters.count_captured.trans (hcaptured master hlib.master_isSome)

end Process.Up

/-- What a life comes to. While the application is up, every announcement calls
its addon back as often as its tellings say; once it is gone the listeners of the
others are what they were, and nothing that is registered captures the
application, provided that the addon had started. -/
structure Process.Lives (p : Process) (this : ObjectId) (others : VirtualCdj) (started : Bool)
    (gone : Process) : Prop where
  told : ∀ cb, (p.lib.listeners cb).count this = cb.tellings (p.isVirtualCdjRunning this)
  destroyed : gone.objects this = none
  given_back : gone.lib.virtualCdj.updateListeners = others.updateListeners ∧
    gone.lib.virtualCdj.masterListeners = others.masterListeners
  left_behind : (∀ cb, this ∉ gone.lib.listeners cb) ↔ started = true

namespace Process.Up

variable {p : Process} {this : ObjectId} {others : VirtualCdj} {running : Bool}

/-- `stop()` and the destruction. The destructor stops `VirtualCdj` too, so it
does not matter whether it was stopped before. -/
theorem gone (h : p.Up this others running) :
    let q := (p.step this .stop).step this .destroy
    q.objects this = none ∧ q.lib.ListenersOwned this others none none false ∧
      q.lib.Registered this (if running then 0 else 1) := by
  intro q
  obtain ⟨⟨self, hobject, hrunning⟩, howned, hregistered⟩ := h
  have hstopped : (p.step this .stop).objects this = some { self with running := false } := by
    rw [step_objects_self hobject, ← OfxBeatLink.stop_object self p.lib]
    rfl
  have hgone : q.objects this = none := step_objects_self hstopped .destroy
  have howned' : q.ListenersOwned this others := (howned.step .stop).step .destroy
  rw [ListenersOwned, hgone] at howned'
  refine ⟨hgone, howned', ?_⟩
  have hcount := (hregistered.stop self).destroy { self with running := false }
  rw [hrunning] at hcount
  rw [step_lib hstopped, step_lib hobject]
  exact hcount

theorem lives (h : p.Up this others running) {q : Process} (hq : q.Up this others running) :
    p.Lives this others running ((q.step this .stop).step this .destroy) := by
  obtain ⟨hgone, hlib, hcount⟩ := hq.gone
  have hupdates := hlib.updates.eq_append
  have hmasters := hlib.masters.eq_append
  rw [Option.toList_none, List.append_nil] at hupdates hmasters
  refine ⟨h.count_listeners, hgone, ⟨hupdates, hmasters⟩, ?_⟩
  cases running with
  | false =>
      refine iff_of_false (fun hnone => ?_) Bool.false_ne_true
      exact absurd (hcount.2.2.symm.trans (List.count_eq_zero.mpr (hnone (.onBeat default))))
        Nat.one_ne_zero
  | true =>
      refine iff_of_true (fun cb => ?_) rfl
      have hcaptured (listeners : List ListenerPtr) (hne : ∀ l ∈ listeners, l.captured ≠ this) :
          this ∉ listeners.map ListenerPtr.captured := by
        intro hmem
        obtain ⟨l, hl, rfl⟩ := List.mem_map.mp hmem
        exact hne l hl rfl
      cases cb with
      | onBeat beat => exact List.count_eq_zero.mp hcount.2.2
      | onDeviceFound device => exact List.count_eq_zero.mp hcount.1
      | onDeviceLost device => exact List.count_eq_zero.mp hcount.2.1
      | deviceUpdate now update => exact hcaptured _ hlib.updates.captured_ne_of_none
      | masterChanged now update => exact hcaptured _ hlib.masters.captured_ne_of_none

end Process.Up

/-! ### The three lives -/

namespace Process

variable {p : Process} {this : ObjectId} {others : VirtualCdj} {running : Bool}

theorem Fresh.not_registered (h : p.Fresh this) : p.lib.Registered this 0 :=
  ⟨List.count_eq_zero.mpr h.found, List.count_eq_zero.mpr h.lost, List.count_eq_zero.mpr h.beat⟩

theorem Fresh.up_of_start (h : p.Fresh this) (d b : Bool) :
    (p.step this (.start d b)).Up this p.lib.virtualCdj (d && b) :=
  Up.of_start h.object rfl h.listenersOwned h.not_registered d b

/-- The key `v`, for an application that asks whether `VirtualCdj` runs. -/
theorem Up.toggle (h : p.Up this others running) (n : Int) (s : Bool) (a : UInt8) :
    (if p.isVirtualCdjRunning this then p.step this .stopVirtualCdj
      else p.step this (.startVirtualCdj n s a)).Up this others running := by
  split
  · exact h.stopVirtualCdj
  · exact h.startVirtualCdj n s a

/-- A request is granted exactly if `VirtualCdj` is reported to run after it. -/
theorem returns_startVirtualCdj (h : (p.objects this).isSome) (n : Int) (s : Bool) (a : UInt8) :
    p.returns this (.startVirtualCdj n s a) =
      (p.step this (.startVirtualCdj n s a)).isVirtualCdjRunning this := by
  obtain ⟨self, hobject⟩ := Option.isSome_iff_exists.mp h
  rw [isVirtualCdjRunning, step_objects_self hobject, returns, hobject]
  exact (self.startVirtualCdj_virtualCdjRunning this p.lib n s a).symm

theorem isVirtualCdjRunning_stopVirtualCdj (p : Process) (this : ObjectId) :
    (p.step this .stopVirtualCdj).isVirtualCdjRunning this = false := by
  cases hobject : p.objects this with
  | none => rw [step_of_none hobject, isVirtualCdjRunning, hobject, Option.any_none]
  | some self =>
      rw [isVirtualCdjRunning, step_objects_self hobject, OfxBeatLink.call_isVirtualCdjRunning]

theorem Up.isSome (h : p.Up this others running) : (p.objects this).isSome := by
  obtain ⟨self, hobject, -⟩ := h.object
  simp [hobject]

end Process

namespace VirtualCdjMonitor

variable {p : Process} {this : ObjectId}

theorem up_setup (h : p.Fresh this) (d b s : Bool) (a : UInt8) :
    (setup p this d b s a).Up this p.lib.virtualCdj (d && b) := by
  have hnamed : (p.setVirtualCdjDeviceName this "ofxBeatLink").objects this =
      some { virtualCdjName := "ofxBeatLink" } := by
    refine (Function.update_self ..).trans ?_
    rw [h.object]
    rfl
  have howned := h.listenersOwned
  rw [Process.ListenersOwned, h.object] at howned
  refine (Process.Up.of_start hnamed rfl ?_ h.not_registered d b).startVirtualCdj 0 s a
  rw [Process.ListenersOwned, hnamed]
  exact howned

theorem up_run (h : p.Fresh this) (d b s : Bool) (a : UInt8) (happenings : List Happening) :
    (happenings.foldl (happen this) (setup p this d b s a)).Up this p.lib.virtualCdj (d && b) := by
  induction happenings using List.reverseRecOn with
  | nil => exact up_setup h d b s a
  | append_singleton happenings x ih =>
      rw [List.foldl_concat]
      cases x with
      | announced cb => exact (ih.announce cb).1
      | update => exact ih.update.1
      | keyPressed ch s a =>
          rw [happen, keyPressed]
          split
          · exact ih.toggle 0 s a
          · exact ih

end VirtualCdjMonitor

namespace CdjStatus

variable {p : Process} {this : ObjectId}

theorem up_run (h : p.Fresh this) (d b s : Bool) (a : UInt8) (happenings : List Happening) :
    (happenings.foldl (happen this) (setup p this d b s a)).Up this p.lib.virtualCdj (d && b) := by
  induction happenings using List.reverseRecOn with
  | nil => exact (h.up_of_start d b).startVirtualCdj 0 s a
  | append_singleton happenings x ih =>
      rw [List.foldl_concat]
      cases x with
      | announced cb => exact (ih.announce cb).1
      | update => exact ih.update.1
      | keyPressed ch s a => exact ih

end CdjStatus

namespace Comprehensive

variable {p : Process} {this : ObjectId} {others : VirtualCdj} {running : Bool}

/-- The invariant with the flag of the application, which is what
`isVirtualCdjRunning()` would return. -/
structure Running.Up (app : Running) (this : ObjectId) (others : VirtualCdj) (running : Bool) :
    Prop where
  process : app.process.Up this others running
  flag : app.virtualCdjRunning = app.process.isVirtualCdjRunning this

theorem up_setup (h : p.Fresh this) (d b s : Bool) (a : UInt8) :
    (setup p this d b s a).Up this p.lib.virtualCdj (d && b) := by
  have hup := h.up_of_start d b
  rw [setup]
  split
  · exact ⟨hup.startVirtualCdj 0 s a, Process.returns_startVirtualCdj hup.isSome 0 s a⟩
  · refine ⟨hup, ?_⟩
    rw [Process.isVirtualCdjRunning, Process.step_objects_self h.object,
      OfxBeatLink.call_isVirtualCdjRunning]

theorem up_keyPressed {app : Running} (h : app.Up this others running) (ch : Char) (s : Bool)
    (a : UInt8) : (keyPressed app this ch s a).Up this others running := by
  rw [keyPressed]
  split
  · split
    · exact ⟨h.process.stopVirtualCdj,
        (Process.isVirtualCdjRunning_stopVirtualCdj app.process this).symm⟩
    · exact ⟨h.process.startVirtualCdj 0 s a,
        Process.returns_startVirtualCdj h.process.isSome 0 s a⟩
  · exact h

theorem up_run (h : p.Fresh this) (d b s : Bool) (a : UInt8) (happenings : List Happening) :
    (happenings.foldl (happen this) (setup p this d b s a)).Up this p.lib.virtualCdj (d && b) := by
  induction happenings using List.reverseRecOn with
  | nil => exact up_setup h d b s a
  | append_singleton happenings x ih =>
      rw [List.foldl_concat]
      cases x with
      | announced cb =>
          obtain ⟨hup, hflag⟩ := ih.process.announce cb
          exact ⟨hup, ih.flag.trans hflag.symm⟩
      | update =>
          obtain ⟨hup, hflag⟩ := ih.process.update
          exact ⟨hup, ih.flag.trans hflag.symm⟩
      | keyPressed ch s a => exact up_keyPressed ih ch s a

end Comprehensive

/-- **The life of an application.** Whatever the library's starts come to, and
whatever happens between `setup()` and `exit()`. The flag that
`example-comprehensive` keeps is true exactly while `VirtualCdj` runs for it. -/
theorem lives_of_fresh {p : Process} {this : ObjectId} (h : p.Fresh this) (d b s : Bool)
    (a : UInt8) (happenings : List Happening) :
    let monitor := happenings.foldl (VirtualCdjMonitor.happen this)
      (VirtualCdjMonitor.setup p this d b s a)
    let status := happenings.foldl (CdjStatus.happen this) (CdjStatus.setup p this d b s a)
    let comprehensive := happenings.foldl (Comprehensive.happen this)
      (Comprehensive.setup p this d b s a)
    monitor.Lives this p.lib.virtualCdj (d && b) (VirtualCdjMonitor.exit monitor this) ∧
      status.Lives this p.lib.virtualCdj (d && b) (CdjStatus.exit status this) ∧
      comprehensive.process.Lives this p.lib.virtualCdj (d && b)
        (Comprehensive.exit comprehensive this) ∧
      comprehensive.virtualCdjRunning = comprehensive.process.isVirtualCdjRunning this := by
  intro monitor status comprehensive
  have hmonitor : monitor.Up this _ _ := VirtualCdjMonitor.up_run h d b s a happenings
  have hstatus : status.Up this _ _ := CdjStatus.up_run h d b s a happenings
  have hcomprehensive : comprehensive.Up this _ _ := Comprehensive.up_run h d b s a happenings
  refine ⟨hmonitor.lives hmonitor.stopVirtualCdj, hstatus.lives hstatus.stopVirtualCdj, ?_,
    hcomprehensive.flag⟩
  refine hcomprehensive.process.lives ?_
  split
  · exact hcomprehensive.process.stopVirtualCdj
  · exact hcomprehensive.process

/-- An application that hears a beat and has `VirtualCdj` switched off and on
again is told of everything, and nothing captures it in the end. Where
`BeatFinder::start` fails, beats are still announced to an object that is gone. -/
theorem lives_of_failed_start :
    let key : Happening := .keyPressed 'v' true 7
    let started := [.announced (.onBeat default), .update, key, key].foldl (Comprehensive.happen 0)
      (Comprehensive.setup .initial 0 true true true 7)
    let failed := [key].foldl (Comprehensive.happen 0)
      (Comprehensive.setup .initial 0 true false true 7)
    started.virtualCdjRunning = true ∧
      (∀ cb, (started.process.lib.listeners cb).count 0 = cb.tellings true) ∧
      (∀ cb, (0 : ObjectId) ∉ (Comprehensive.exit started 0).lib.listeners cb) ∧
      failed.virtualCdjRunning = true ∧
      ¬ ∀ cb, (0 : ObjectId) ∉ (Comprehensive.exit failed 0).lib.listeners cb := by
  intro key started failed
  obtain ⟨-, -, hstarted, -⟩ := lives_of_fresh (Process.initial_fresh 0) true true true 7
    [.announced (.onBeat default), .update, key, key]
  obtain ⟨-, -, hfailed, -⟩ := lives_of_fresh (Process.initial_fresh 0) true false true 7 [key]
  exact ⟨rfl, hstarted.told, hstarted.left_behind.mpr rfl, rfl,
    fun hnone => absurd (hfailed.left_behind.mp hnone) (by decide)⟩

end DjLink
