import Mathlib.Data.List.Induction
import DjLink.Process
import DjLink.Library.LastWrite

/-!
Registration with the two finders. `start()` registers the object's three
callbacks before it starts the finders, and returns early when one of them
fails, with the callbacks left registered and the object not running. After
that the object is told of every event while it is stopped, twice after a
retry, and still after it was destroyed. As long as no `start()` fails, every
object is registered exactly once while it runs and not at all otherwise.
-/

namespace DjLink

open Beatlink

/-- The object's callback is `n` times in each of the three lists. -/
def Singletons.Registered (lib : Singletons) (this : ObjectId) (n : Nat) : Prop :=
  lib.deviceFinder.deviceFoundListeners.count this = n ∧
    lib.deviceFinder.deviceLostListeners.count this = n ∧
    lib.beatFinder.beatListeners.count this = n

/-- A callback that one of the two finders runs. -/
def Callback.IsFinder : Callback → Prop
  | .onBeat _ => True
  | .onDeviceFound _ => True
  | .onDeviceLost _ => True
  | .deviceUpdate _ _ => False
  | .masterChanged _ _ => False

/-- Registered once while running and not at all otherwise. -/
def Process.RegisteredOnce (p : Process) (this : ObjectId) : Prop :=
  p.lib.Registered this (if p.isRunning this then 1 else 0)

/-- The registration invariant: the object is registered once in every list
while it reports that it runs and in none otherwise; so an announcement is
enqueued exactly once or not at all; and nothing that is registered captured a
destroyed object. -/
structure Process.RegistrationHolds (p : Process) (this : ObjectId) : Prop where
  registered : p.RegisteredOnce this
  enqueued : ∀ cb : Callback, cb.IsFinder → ∀ self, p.objects this = some self →
    ∃ self', (p.announce cb).objects this = some self' ∧
      ∀ q, self'.queued q = self.queued q ++
        if self.isRunning then cb.event?.toList.filter (fun e => e.queue = q) else []
  destroyed : p.objects this = none →
    this ∉ p.lib.deviceFinder.deviceFoundListeners ∧
      this ∉ p.lib.deviceFinder.deviceLostListeners ∧ this ∉ p.lib.beatFinder.beatListeners

/-- Every `start()` of the object, made while it is not running, finds both
finders willing to start. -/
def StartsSucceed (p : Process) (this : ObjectId) (calls : List Call) : Prop :=
  ∀ before deviceStarted beatStarted after,
    calls = before ++ .start deviceStarted beatStarted :: after →
    ((p.runOn this before).objects this).isSome → (p.runOn this before).isRunning this = false →
    deviceStarted = true ∧ beatStarted = true

theorem StartsSucceed.of_append {p : Process} {this : ObjectId} {before after : List Call}
    (h : StartsSucceed p this (before ++ after)) : StartsSucceed p this before := by
  intro before' d b after' heq
  exact h before' d b (after' ++ after) (by simp [heq])

/-! ### One call -/

namespace Singletons.Registered

variable {lib : Singletons} {this : ObjectId} {n : Nat}

theorem start (h : lib.Registered this n) (self : OfxBeatLink) (d b : Bool) :
    (self.start this lib d b).2.2.Registered this (n + if self.running then 0 else 1) := by
  obtain ⟨hfound, hlost, hbeat⟩ := self.start_listeners this lib d b
  obtain ⟨h₁, h₂, h₃⟩ := h
  rw [Registered, hfound, hlost, hbeat]
  cases self.running <;> simp [h₁, h₂, h₃]

theorem stop (h : lib.Registered this n) (self : OfxBeatLink) :
    (self.stop lib).2.Registered this (if self.running then 0 else n) := by
  rw [self.stop_finders lib]
  cases self.running with
  | false => exact h
  | true => exact ⟨rfl, rfl, rfl⟩

theorem startVirtualCdj (h : lib.Registered this n) (self : OfxBeatLink) (k : Int) (s : Bool)
    (a : UInt8) : (self.startVirtualCdj this lib k s a).2.2.Registered this n := by
  obtain ⟨-, hdevice, hbeat, -⟩ := self.startVirtualCdj_finders this lib k s a
  rw [Registered, hdevice, hbeat]
  exact h

theorem stopVirtualCdj (h : lib.Registered this n) (self : OfxBeatLink) :
    (self.stopVirtualCdj lib).2.Registered this n := by
  obtain ⟨-, hdevice, hbeat, -⟩ := self.stopVirtualCdj_finders lib
  rw [Registered, hdevice, hbeat]
  exact h

theorem destroy (h : lib.Registered this n) (self : OfxBeatLink) :
    (self.destroy lib).Registered this (if self.running then 0 else n) := by
  rw [self.destroy_eq lib]
  cases self.running with
  | false => exact h.stopVirtualCdj self
  | true => exact ⟨rfl, rfl, rfl⟩

end Singletons.Registered

namespace Process

variable {p : Process} {this : ObjectId}

theorem Fresh.registeredOnce (h : p.Fresh this) : p.RegisteredOnce this := by
  rw [RegisteredOnce, isRunning_of_some h.object]
  exact ⟨List.count_eq_zero.mpr h.found, List.count_eq_zero.mpr h.lost,
    List.count_eq_zero.mpr h.beat⟩

/-- The step lemma: only a `start()` that fails breaks the count. -/
theorem RegisteredOnce.step (h : p.RegisteredOnce this) (c : Call)
    (hstart : ∀ d b, c = .start d b → (p.objects this).isSome → p.isRunning this = false →
      d = true ∧ b = true) :
    (p.step this c).RegisteredOnce this := by
  cases hobject : p.objects this with
  | none => rwa [step_of_none hobject]
  | some self =>
      have hrunning := isRunning_of_some hobject
      rw [RegisteredOnce, hrunning] at h
      rw [hobject, hrunning] at hstart
      rw [RegisteredOnce, isRunning, step_objects_self hobject, step_lib hobject,
        OfxBeatLink.call_isRunning]
      cases c with
      | start d b =>
          have hcount := h.start self d b
          cases hself : self.running with
          | true => simpa [OfxBeatLink.call, hself] using hcount
          | false =>
              obtain ⟨rfl, rfl⟩ := hstart d b rfl rfl hself
              simpa [OfxBeatLink.call, hself] using hcount
      | stop =>
          have hcount := h.stop self
          rw [ite_eq_left_iff.mpr fun hself => if_neg hself] at hcount
          exact hcount
      | startVirtualCdj k s a => exact h.startVirtualCdj self k s a
      | stopVirtualCdj => exact h.stopVirtualCdj self
      | destroy =>
          have hcount := h.destroy self
          rw [ite_eq_left_iff.mpr fun hself => if_neg hself] at hcount
          exact hcount

/-- A `start()` that fails leaves the object registered and not running. -/
theorem not_registeredOnce_of_failed_start (h : p.RegisteredOnce this)
    (hobject : (p.objects this).isSome) (hrunning : p.isRunning this = false) {d b : Bool}
    (hfail : ¬ (d = true ∧ b = true)) : ¬ (p.step this (.start d b)).RegisteredOnce this := by
  obtain ⟨self, hobject⟩ := Option.isSome_iff_exists.mp hobject
  have hself : self.running = false := (isRunning_of_some hobject).symm.trans hrunning
  have hstill : (self.running || (d && b)) = false := by
    rw [hself]
    simpa using hfail
  rw [RegisteredOnce, hrunning] at h
  have hcount := h.start self d b
  rw [hself] at hcount
  intro honce
  rw [RegisteredOnce, isRunning, step_objects_self hobject, step_lib hobject,
    OfxBeatLink.call_isRunning] at honce
  simp only [hstill] at honce
  exact absurd (hcount.1.symm.trans honce.1) (by decide)

/-! ### What registration is for -/

theorem count_listeners {lib : Singletons} {n : Nat} (h : lib.Registered this n) {cb : Callback}
    (hcb : cb.IsFinder) : (lib.listeners cb).count this = n := by
  cases cb with
  | onBeat beat => exact h.2.2
  | onDeviceFound device => exact h.1
  | onDeviceLost device => exact h.2.1
  | deviceUpdate now update => exact hcb.elim
  | masterChanged now update => exact hcb.elim

/-- The count is all there is to the invariant: one registration enqueues
once, and none leaves nothing behind. -/
theorem registrationHolds_iff : p.RegistrationHolds this ↔ p.RegisteredOnce this := by
  refine ⟨fun h => h.registered, fun h => ⟨h, ?_, ?_⟩⟩
  · intro cb hcb self hobject
    rw [RegisteredOnce, isRunning_of_some hobject] at h
    have hcount := count_listeners h hcb
    rw [announce_objects, hobject, hcount, OfxBeatLink.isRunning]
    cases self.running with
    | false => exact ⟨self, rfl, fun q => by simp⟩
    | true => exact ⟨self.callback cb, rfl, fun q => self.queued_callback cb q⟩
  · intro hobject
    have hrunning : p.isRunning this = false := by simp [isRunning, hobject]
    rw [RegisteredOnce, hrunning] at h
    obtain ⟨hfound, hlost, hbeat⟩ := h
    exact ⟨List.count_eq_zero.mp hfound, List.count_eq_zero.mp hlost,
      List.count_eq_zero.mp hbeat⟩

/-! ### Whole runs -/

theorem registeredOnce_runOn (h : p.RegisteredOnce this) {calls : List Call}
    (hstarts : StartsSucceed p this calls) : (p.runOn this calls).RegisteredOnce this := by
  induction calls using List.reverseRecOn with
  | nil => exact h
  | append_singleton calls c ih =>
      rw [runOn_concat]
      apply (ih hstarts.of_append).step c
      rintro d b rfl
      exact hstarts calls d b [] rfl

end Process

/-- **Registration of one object.** The registration invariant holds after
every call of a sequence if and only if no `start()` of the sequence fails. -/
theorem registration_holds_iff {p : Process} {this : ObjectId} (hfresh : p.Fresh this)
    (calls : List Call) :
    (∀ before after, calls = before ++ after → (p.runOn this before).RegistrationHolds this) ↔
      StartsSucceed p this calls := by
  constructor
  · rintro h before d b after rfl hobject hrunning
    by_contra hfail
    have hbefore := Process.registrationHolds_iff.mp (h before _ rfl)
    have hafter := Process.registrationHolds_iff.mp (h (before ++ [.start d b]) after (by simp))
    rw [Process.runOn_concat] at hafter
    exact Process.not_registeredOnce_of_failed_start hbefore hobject hrunning hfail hafter
  · rintro h before after rfl
    exact Process.registrationHolds_iff.mpr
      (Process.registeredOnce_runOn hfresh.registeredOnce h.of_append)

/-- An object starts, stops, starts again and is destroyed. -/
theorem registration_holds_of_restart :
    let calls := [Call.start true true, .stop, .start true true, .destroy]
    (∀ before after, calls = before ++ after →
        (Process.initial.runOn 0 before).RegistrationHolds 0) ∧
      (Process.initial.runOn 0 [.start true true]).isRunning 0 = true ∧
      (Process.initial.runOn 0 [.start true true, .stop]).isRunning 0 = false ∧
      (Process.initial.runOn 0 [.start true true, .stop, .start true true]).isRunning 0 = true ∧
      (Process.initial.runOn 0 calls).objects 0 = none := by
  intro calls
  refine ⟨(registration_holds_iff (Process.initial_fresh 0) calls).mpr ?_, rfl, rfl, rfl, rfl⟩
  rintro before d b after heq - -
  have hstarts : ∀ x ∈ calls, x = .start d b → d = true ∧ b = true := by
    simp [calls, eq_comm]
  exact hstarts _ (by simp [heq]) rfl

/-- `DeviceFinder::start` fails: the object is registered and does not run. A
retry that succeeds registers it a second time; its destruction leaves a
callback registered that captures it. -/
theorem registered_after_failed_start :
    let failed := Process.initial.runOn 0 [.start false true]
    let retried := failed.step 0 (.start true true)
    let destroyed := failed.step 0 .destroy
    failed.isRunning 0 = false ∧ failed.lib.Registered 0 1 ∧
      retried.isRunning 0 = true ∧ retried.lib.Registered 0 2 ∧
      destroyed.objects 0 = none ∧ destroyed.lib.Registered 0 1 ∧
      ¬ ∀ before after, [Call.start false true] = before ++ after →
        (Process.initial.runOn 0 before).RegistrationHolds 0 := by
  intro failed retried destroyed
  have hregistered : failed.lib.Registered 0 1 := ⟨rfl, rfl, rfl⟩
  refine ⟨rfl, hregistered, rfl, ⟨rfl, rfl, rfl⟩, rfl, ⟨rfl, rfl, rfl⟩, fun h => ?_⟩
  have honce : failed.lib.Registered 0 0 := (h [.start false true] [] rfl).registered
  exact absurd (hregistered.1.symm.trans honce.1) (by decide)

end DjLink
