import Mathlib.Data.List.Induction
import DjLink.Registration

/-!
Several objects over one set of singletons. Every object keeps its own running
flags, while `stop()` and `stopVirtualCdj()` stop the finders and `VirtualCdj`
for everyone, and `stop()` clears the listener lists of everyone. There is no
count of users. An object that reports that it runs is served as long as no
other object is stopped or destroyed under it, and not a step longer. The
library promises that a start finds a running finder willing.
-/

namespace DjLink

open Beatlink LastWrite

/-- What the library promises of the outcomes of a call: a start of what
already runs succeeds. -/
def Call.Admissible (lib : Singletons) : Call → Prop
  | .start deviceStarted beatStarted =>
      (lib.deviceFinder.running = true → deviceStarted = true) ∧
        (lib.beatFinder.running = true → beatStarted = true)
  | .startVirtualCdj _ started _ => lib.virtualCdj.running = true → started = true
  | .stop => True
  | .stopVirtualCdj => True
  | .destroy => True

/-- The calls that stop the finders of an object that runs. -/
def Call.StopsFinders : Call → Prop
  | .stop => True
  | .destroy => True
  | .start _ _ => False
  | .startVirtualCdj _ _ _ => False
  | .stopVirtualCdj => False

/-- The calls that stop `VirtualCdj` of an object that runs it. -/
def Call.StopsVirtualCdj : Call → Prop
  | .stopVirtualCdj => True
  | .destroy => True
  | .start _ _ => False
  | .startVirtualCdj _ _ _ => False
  | .stop => False

/-- Both finders run and the object's three callbacks are registered. -/
structure Singletons.ServesFinders (lib : Singletons) (this : ObjectId) : Prop where
  deviceFinder : lib.deviceFinder.running = true
  beatFinder : lib.beatFinder.running = true
  found : this ∈ lib.deviceFinder.deviceFoundListeners
  lost : this ∈ lib.deviceFinder.deviceLostListeners
  beat : this ∈ lib.beatFinder.beatListeners

/-- `VirtualCdj` runs and the object's two listeners are registered. -/
structure Singletons.ServesVirtualCdj (lib : Singletons) (this : ObjectId) (served : OfxBeatLink) :
    Prop where
  running : lib.virtualCdj.running = true
  update : ∃ listener, served.deviceUpdateListener = some listener ∧ listener.captured = this ∧
    listener ∈ lib.virtualCdj.updateListeners
  master : ∃ listener, served.masterListener = some listener ∧ listener.captured = this ∧
    listener ∈ lib.virtualCdj.masterListeners

namespace Process

def FindersIsolated (p : Process) : Prop :=
  ∀ this, p.isRunning this = true → p.lib.ServesFinders this

def VirtualCdjIsolated (p : Process) : Prop :=
  ∀ this self, p.objects this = some self → self.isVirtualCdjRunning = true →
    p.lib.ServesVirtualCdj this self

/-- Whoever reports that it runs is served. -/
def Isolated (p : Process) : Prop := p.FindersIsolated ∧ p.VirtualCdjIsolated

/-- All outcomes of a run are as the library promises. -/
def Admissible (p : Process) (calls : List (ObjectId × Call)) : Prop :=
  ∀ before x after, calls = before ++ x :: after → x.2.Admissible (p.run before).lib

/-- The call `c` on `this` stops nothing that another object uses. -/
def Spares (p : Process) (this : ObjectId) (c : Call) : Prop :=
  (c.StopsFinders → p.isRunning this = true →
    ∀ other, other ≠ this → p.isRunning other = false) ∧
  (c.StopsVirtualCdj → p.isVirtualCdjRunning this = true →
    ∀ other, other ≠ this → p.isVirtualCdjRunning other = false)

variable {p : Process} {this : ObjectId}

theorem step_isRunning_of_ne {other : ObjectId} (h : other ≠ this) (c : Call) :
    (p.step this c).isRunning other = p.isRunning other := by
  rw [isRunning, step_objects_of_ne h, isRunning]

end Process

/-! ### The finders -/

namespace Singletons.ServesFinders

variable {lib lib' : Singletons} {this other : ObjectId}

theorem congr (h : lib.ServesFinders other) (hdevice : lib'.deviceFinder = lib.deviceFinder)
    (hbeat : lib'.beatFinder = lib.beatFinder) : lib'.ServesFinders other := by
  obtain ⟨h₁, h₂, h₃, h₄, h₅⟩ := h
  constructor <;> simp only [hdevice, hbeat] <;> assumption

/-- A `start()` that succeeds serves its object, and whoever was served
before. -/
theorem start {self : OfxBeatLink} (hself : self.running = false)
    (h : other = this ∨ lib.ServesFinders other) :
    (self.start this lib true true).2.2.ServesFinders other := by
  obtain ⟨hfound, hlost, hbeat⟩ := self.start_listeners this lib true true
  obtain ⟨hdeviceRuns, hbeatRuns⟩ := self.start_finders this lib true true
  rw [hself] at hfound hlost hbeat hdeviceRuns hbeatRuns
  refine ⟨by simpa using hdeviceRuns, by simpa using hbeatRuns, ?_, ?_, ?_⟩
  · rw [hfound]
    rcases h with rfl | h
    · simp
    · simp [h.found]
  · rw [hlost]
    rcases h with rfl | h
    · simp
    · simp [h.lost]
  · rw [hbeat]
    rcases h with rfl | h
    · simp
    · simp [h.beat]

end Singletons.ServesFinders

namespace Process

variable {p : Process} {this : ObjectId}

theorem FindersIsolated.step (h : p.FindersIsolated) {c : Call} (hadmissible : c.Admissible p.lib)
    (hspares : p.Spares this c) : (p.step this c).FindersIsolated := by
  cases hobject : p.objects this with
  | none => rwa [step_of_none hobject]
  | some self =>
      have hrunning := isRunning_of_some hobject
      intro other hother
      -- who runs after the call either is the caller or ran before
      have hcases : (other = this ∧ (self.call this p.lib c).1.any OfxBeatLink.isRunning = true) ∨
          (other ≠ this ∧ p.isRunning other = true) := by
        by_cases heq : other = this
        · subst heq
          rw [isRunning, step_objects_self hobject] at hother
          exact .inl ⟨rfl, hother⟩
        · rw [step_isRunning_of_ne heq] at hother
          exact .inr ⟨heq, hother⟩
      rw [OfxBeatLink.call_isRunning] at hcases
      rw [step_lib hobject]
      cases c with
      | start d b =>
          cases hself : self.running with
          | true =>
              have hserved : p.lib.ServesFinders other := by
                rcases hcases with ⟨rfl, -⟩ | ⟨-, hran⟩
                · exact h other (hrunning.trans hself)
                · exact h other hran
              rw [OfxBeatLink.call, OfxBeatLink.start_of_running self this p.lib d b hself]
              exact hserved
          | false =>
              have houtcomes : d = true ∧ b = true := by
                rcases hcases with ⟨-, hstarts⟩ | ⟨-, hran⟩
                · simpa [hself] using hstarts
                · exact ⟨hadmissible.1 (h other hran).deviceFinder,
                    hadmissible.2 (h other hran).beatFinder⟩
              obtain ⟨rfl, rfl⟩ := houtcomes
              apply Singletons.ServesFinders.start hself
              exact hcases.imp And.left fun hran => h other hran.2
      | stop =>
          rcases hcases with ⟨-, hfalse⟩ | ⟨hne, hran⟩
          · cases hfalse
          · cases hself : self.running with
            | true =>
                rw [hspares.1 trivial (hrunning.trans hself) other hne] at hran
                cases hran
            | false =>
                apply (h other hran).congr <;> simp [OfxBeatLink.call, OfxBeatLink.stop_finders, hself]
      | destroy =>
          rcases hcases with ⟨-, hfalse⟩ | ⟨hne, hran⟩
          · cases hfalse
          · obtain ⟨-, hdevice, hbeat, -⟩ := self.stopVirtualCdj_finders p.lib
            cases hself : self.running with
            | true =>
                rw [hspares.1 trivial (hrunning.trans hself) other hne] at hran
                cases hran
            | false =>
                apply (h other hran).congr <;>
                  simp [OfxBeatLink.call, OfxBeatLink.destroy_eq, hself, hdevice, hbeat]
      | startVirtualCdj k s a =>
          obtain ⟨-, hdevice, hbeat, -⟩ := self.startVirtualCdj_finders this p.lib k s a
          apply Singletons.ServesFinders.congr _ hdevice hbeat
          rcases hcases with ⟨rfl, hself⟩ | ⟨-, hran⟩
          · exact h other (hrunning.trans hself)
          · exact h other hran
      | stopVirtualCdj =>
          obtain ⟨-, hdevice, hbeat, -⟩ := self.stopVirtualCdj_finders p.lib
          apply Singletons.ServesFinders.congr _ hdevice hbeat
          rcases hcases with ⟨rfl, hself⟩ | ⟨-, hran⟩
          · exact h other (hrunning.trans hself)
          · exact h other hran

end Process

/-! ### `VirtualCdj` -/

namespace Singletons.ServesVirtualCdj

variable {lib lib' : Singletons} {this other : ObjectId} {self served : OfxBeatLink}

theorem congr (h : lib.ServesVirtualCdj other served) (hlib : lib'.virtualCdj = lib.virtualCdj) :
    lib'.ServesVirtualCdj other served := by
  obtain ⟨h₁, h₂, h₃⟩ := h
  constructor <;> rw [hlib] <;> assumption

/-- A `startVirtualCdj` that succeeds serves its object. -/
theorem startVirtualCdj_self (hself : self.virtualCdjRunning = false) (k : Int) (a : UInt8) :
    (self.startVirtualCdj this lib k true a).2.2.ServesVirtualCdj this
      (self.startVirtualCdj this lib k true a).2.1 := by
  obtain ⟨-, hobject, hupdate, hmaster, hrunning⟩ :=
    self.startVirtualCdj_of_started this lib k a hself
  refine ⟨hrunning, ?_, ?_⟩
  · rw [hobject, hupdate]
    exact ⟨_, rfl, rfl, by simp⟩
  · rw [hobject, hmaster]
    exact ⟨_, rfl, rfl, by simp⟩

/-- It keeps serving whoever was served before. -/
theorem startVirtualCdj_other (h : lib.ServesVirtualCdj other served)
    (hself : self.virtualCdjRunning = false) (k : Int) (a : UInt8) :
    (self.startVirtualCdj this lib k true a).2.2.ServesVirtualCdj other served := by
  obtain ⟨-, -, hupdate, hmaster, hrunning⟩ := self.startVirtualCdj_of_started this lib k a hself
  obtain ⟨u, hu, hucaptured, humem⟩ := h.update
  obtain ⟨m, hm, hmcaptured, hmmem⟩ := h.master
  refine ⟨hrunning, ⟨u, hu, hucaptured, ?_⟩, ⟨m, hm, hmcaptured, ?_⟩⟩
  · rw [hupdate]
    exact List.mem_append_left _ humem
  · rw [hmaster]
    exact List.mem_append_left _ hmmem

end Singletons.ServesVirtualCdj

namespace Process

variable {p : Process} {this : ObjectId}

/-- What a call leaves of the service of another object. -/
theorem servesVirtualCdj_step_other {self served : OfxBeatLink} {other : ObjectId}
    (hobject : p.objects this = some self) (hother : p.lib.ServesVirtualCdj other served) {c : Call}
    (hadmissible : c.Admissible p.lib)
    (hkeeps : c.StopsVirtualCdj → self.virtualCdjRunning = false) :
    (p.step this c).lib.ServesVirtualCdj other served := by
  rw [step_lib hobject]
  cases c with
  | start d b => exact hother.congr (self.start_virtualCdj this p.lib d b).1
  | stop => exact hother.congr (self.stop_virtualCdj p.lib).1
  | startVirtualCdj k s a =>
      cases hself : self.virtualCdjRunning with
      | true =>
          rw [OfxBeatLink.call, self.startVirtualCdj_of_running this p.lib k s a hself]
          exact hother
      | false =>
          obtain rfl : s = true := hadmissible hother.running
          exact hother.startVirtualCdj_other hself k a
  | stopVirtualCdj =>
      rw [OfxBeatLink.call, self.stopVirtualCdj_of_not_running p.lib (hkeeps trivial)]
      exact hother
  | destroy =>
      apply hother.congr
      rw [OfxBeatLink.call, self.destroy_virtualCdj,
        self.stopVirtualCdj_of_not_running p.lib (hkeeps trivial)]

/-- What a call leaves of the service of its own object. -/
theorem servesVirtualCdj_step_self {self served : OfxBeatLink} (h : p.VirtualCdjIsolated)
    (hobject : p.objects this = some self) {c : Call}
    (hserved : (self.call this p.lib c).1 = some served)
    (hrunning : served.isVirtualCdjRunning = true) :
    (self.call this p.lib c).2.ServesVirtualCdj this served := by
  have hflag := self.call_isVirtualCdjRunning this p.lib c
  rw [hserved, Option.any_some, hrunning] at hflag
  cases c with
  | start d b =>
      have hsame : { self with running := self.running || (d && b) } = served := by
        simpa [OfxBeatLink.call] using hserved
      subst hsame
      obtain ⟨hruns, hupdate, hmaster⟩ := h this self hobject hflag.symm
      exact Singletons.ServesVirtualCdj.congr ⟨hruns, hupdate, hmaster⟩
        (self.start_virtualCdj this p.lib d b).1
  | stop =>
      have hsame : { self with running := false } = served := by
        simpa [OfxBeatLink.call] using hserved
      subst hsame
      obtain ⟨hruns, hupdate, hmaster⟩ := h this self hobject hflag.symm
      exact Singletons.ServesVirtualCdj.congr ⟨hruns, hupdate, hmaster⟩
        (self.stop_virtualCdj p.lib).1
  | startVirtualCdj k s a =>
      obtain rfl : (self.startVirtualCdj this p.lib k s a).2.1 = served := Option.some.inj hserved
      cases hself : self.virtualCdjRunning with
      | true =>
          have hkept := h this self hobject hself
          rw [OfxBeatLink.call, self.startVirtualCdj_of_running this p.lib k s a hself]
          exact hkept
      | false =>
          obtain rfl : s = true := by simpa [hself] using hflag.symm
          exact Singletons.ServesVirtualCdj.startVirtualCdj_self hself k a
  | stopVirtualCdj => cases hflag
  | destroy => cases hflag

theorem VirtualCdjIsolated.step (h : p.VirtualCdjIsolated) {c : Call}
    (hadmissible : c.Admissible p.lib) (hspares : p.Spares this c) :
    (p.step this c).VirtualCdjIsolated := by
  cases hobject : p.objects this with
  | none => rwa [step_of_none hobject]
  | some self =>
      intro other served hserved hrunning
      by_cases heq : other = this
      · subst heq
        rw [step_objects_self hobject] at hserved
        rw [step_lib hobject]
        exact servesVirtualCdj_step_self h hobject hserved hrunning
      · rw [step_objects_of_ne heq] at hserved
        refine servesVirtualCdj_step_other hobject (h other served hserved hrunning) hadmissible ?_
        intro hstops
        by_contra hself
        have hself : p.isVirtualCdjRunning this = true := by
          rw [isVirtualCdjRunning_of_some hobject]
          simpa using hself
        have hfalse := hspares.2 hstops hself other heq
        rw [isVirtualCdjRunning_of_some hserved] at hfalse
        exact Bool.false_ne_true (hfalse.symm.trans hrunning)

/-! ### What a stop does to the others -/

/-- Stopping the finders under another object leaves it unserved. -/
theorem not_findersIsolated_of_stop {other : ObjectId} {c : Call} (hstops : c.StopsFinders)
    (hthis : p.isRunning this = true) (hne : other ≠ this) (hother : p.isRunning other = true) :
    ¬ (p.step this c).FindersIsolated := by
  intro h
  rw [← step_isRunning_of_ne hne c] at hother
  have hfound := (h other hother).found
  cases hobject : p.objects this with
  | none => simp [isRunning, hobject] at hthis
  | some self =>
      have hself : self.running = true := (isRunning_of_some hobject).symm.trans hthis
      rw [step_lib hobject] at hfound
      cases c with
      | stop =>
          rw [OfxBeatLink.call, self.stop_finders, hself] at hfound
          exact absurd hfound List.not_mem_nil
      | destroy =>
          rw [OfxBeatLink.call, self.destroy_eq, hself] at hfound
          exact absurd hfound List.not_mem_nil
      | start d b => exact hstops
      | startVirtualCdj k s a => exact hstops
      | stopVirtualCdj => exact hstops

theorem not_virtualCdjIsolated_of_stop {other : ObjectId} {c : Call} (hstops : c.StopsVirtualCdj)
    (hthis : p.isVirtualCdjRunning this = true) (hne : other ≠ this)
    (hother : p.isVirtualCdjRunning other = true) : ¬ (p.step this c).VirtualCdjIsolated := by
  intro h
  obtain ⟨served, hserved⟩ : ∃ served, p.objects other = some served := by
    cases hobject : p.objects other with
    | none => simp [isVirtualCdjRunning, hobject] at hother
    | some served => exact ⟨served, rfl⟩
  have hrunning : served.virtualCdjRunning = true :=
    (isVirtualCdjRunning_of_some hserved).symm.trans hother
  have hruns := (h other served ((step_objects_of_ne hne c).trans hserved) hrunning).running
  cases hobject : p.objects this with
  | none => simp [isVirtualCdjRunning, hobject] at hthis
  | some self =>
      have hself : self.virtualCdjRunning = true :=
        (isVirtualCdjRunning_of_some hobject).symm.trans hthis
      have hstopped := (self.stopVirtualCdj_of_running p.lib hself).2
      rw [step_lib hobject] at hruns
      cases c with
      | stopVirtualCdj =>
          rw [OfxBeatLink.call, hstopped] at hruns
          exact absurd hruns Bool.false_ne_true
      | destroy =>
          rw [OfxBeatLink.call, self.destroy_virtualCdj, hstopped] at hruns
          exact absurd hruns Bool.false_ne_true
      | start d b => exact hstops
      | startVirtualCdj k s a => exact hstops
      | stop => exact hstops

/-! ### Whole runs -/

theorem Isolated.step (h : p.Isolated) {c : Call} (hadmissible : c.Admissible p.lib)
    (hspares : p.Spares this c) : (p.step this c).Isolated :=
  ⟨h.1.step hadmissible hspares, h.2.step hadmissible hspares⟩

theorem run_concat (p : Process) (calls : List (ObjectId × Call)) (x : ObjectId × Call) :
    p.run (calls ++ [x]) = (p.run calls).step x.1 x.2 := by
  rw [run, List.foldl_concat, run]

theorem Isolated.run {calls : List (ObjectId × Call)} (h : p.Isolated)
    (hadmissible : p.Admissible calls)
    (hspares : ∀ before x after, calls = before ++ x :: after → (p.run before).Spares x.1 x.2) :
    (p.run calls).Isolated := by
  induction calls using List.reverseRecOn with
  | nil => exact h
  | append_singleton calls x ih =>
      rw [run_concat]
      apply Isolated.step
      · apply ih
        · intro before y after heq
          exact hadmissible before y (after ++ [x]) (by simp [heq])
        · intro before y after heq
          exact hspares before y (after ++ [x]) (by simp [heq])
      · exact hadmissible calls x [] rfl
      · exact hspares calls x [] rfl

end Process

/-- **Isolation of the users of the singletons.** In a run of calls on any
objects with outcomes that the library promises, whoever reports that it runs
is served in every state if and only if no call that stops an object's finders
or `VirtualCdj` is made while another object reports that it runs them. -/
theorem isolated_iff {p : Process} (h : p.Isolated) (calls : List (ObjectId × Call))
    (hadmissible : p.Admissible calls) :
    (∀ before after, calls = before ++ after → (p.run before).Isolated) ↔
      ∀ before x after, calls = before ++ x :: after → (p.run before).Spares x.1 x.2 := by
  constructor
  · rintro hisolated before x after rfl
    have hafter := hisolated (before ++ [x]) after (by simp)
    rw [Process.run_concat] at hafter
    refine ⟨fun hstops hthis other hne => ?_, fun hstops hthis other hne => ?_⟩
    · by_contra hother
      exact Process.not_findersIsolated_of_stop hstops hthis hne (by simpa using hother) hafter.1
    · by_contra hother
      exact Process.not_virtualCdjIsolated_of_stop hstops hthis hne (by simpa using hother) hafter.2
  · rintro hspares before after rfl
    apply h.run
    · intro before' x after' heq
      exact hadmissible before' x (after' ++ after) (by simp [heq])
    · intro before' x after' heq
      exact hspares before' x (after' ++ after) (by simp [heq])

theorem initial_isolated : Process.initial.Isolated := by
  refine ⟨fun this hrunning => ?_, fun this self hobject hrunning => ?_⟩
  · cases hrunning
  · obtain rfl : {} = self := Option.some.inj hobject
    cases hrunning

/-- One object starts, stops and starts again; then a second one starts beside
it, `VirtualCdj` is started for both, and a third object that does not run is
stopped. -/
theorem isolated_of_two_users :
    let calls := [(0, Call.start true true), (0, .stop), (0, .start true true),
      (1, .start true true), (0, .startVirtualCdj 3 true 0), (1, .startVirtualCdj 4 true 0),
      (2, .stop)]
    let p := Process.initial.run calls
    p.Isolated ∧ p.isRunning 0 = true ∧ p.isRunning 1 = true ∧ p.isVirtualCdjRunning 0 = true ∧
      p.isVirtualCdjRunning 1 = true := by
  intro calls p
  have hadmissible : Process.initial.Admissible calls := by
    refine forall_split_cons.mpr ⟨⟨fun _ => rfl, fun _ => rfl⟩, ?_⟩
    refine forall_split_cons.mpr ⟨trivial, ?_⟩
    refine forall_split_cons.mpr ⟨⟨fun _ => rfl, fun _ => rfl⟩, ?_⟩
    refine forall_split_cons.mpr ⟨⟨fun _ => rfl, fun _ => rfl⟩, ?_⟩
    refine forall_split_cons.mpr ⟨fun _ => rfl, ?_⟩
    refine forall_split_cons.mpr ⟨fun _ => rfl, ?_⟩
    exact forall_split_cons.mpr ⟨trivial, forall_split_nil⟩
  refine ⟨(isolated_iff initial_isolated calls hadmissible).mpr ?_ calls [] (by simp),
    rfl, rfl, rfl, rfl⟩
  have hspares {q : Process} {this : ObjectId} {c : Call} (hfinders : ¬ c.StopsFinders)
      (hvirtualCdj : ¬ c.StopsVirtualCdj) : q.Spares this c :=
    ⟨fun hstops => absurd hstops hfinders, fun hstops => absurd hstops hvirtualCdj⟩
  refine forall_split_cons.mpr ⟨hspares id id, ?_⟩
  -- nobody else runs when the first object stops
  refine forall_split_cons.mpr ⟨⟨fun _ _ other hne => ?_, fun hstops => hstops.elim⟩, ?_⟩
  · exact Process.step_isRunning_of_ne (p := Process.initial) (show other ≠ 0 from hne)
      (.start true true)
  refine forall_split_cons.mpr ⟨hspares id id, ?_⟩
  refine forall_split_cons.mpr ⟨hspares id id, ?_⟩
  refine forall_split_cons.mpr ⟨hspares id id, ?_⟩
  refine forall_split_cons.mpr ⟨hspares id id, ?_⟩
  refine forall_split_cons.mpr ⟨⟨fun _ hthis => ?_, fun hstops => hstops.elim⟩, forall_split_nil⟩
  cases hthis

/-- Two objects start and the first stops: the second reports that it runs,
with both finders stopped and none of its callbacks registered. -/
theorem second_object_silenced :
    let calls := [(0, Call.start true true), (1, .start true true), (0, .stop)]
    let p := Process.initial.run calls
    Process.initial.Admissible calls ∧ p.isRunning 1 = true ∧
      p.lib.deviceFinder.running = false ∧ p.lib.beatFinder.running = false ∧
      p.lib.Registered 1 0 ∧
      ¬ ∀ before after, calls = before ++ after → (Process.initial.run before).Isolated := by
  intro calls p
  have hrunning : p.isRunning 1 = true := rfl
  have hfinder : p.lib.deviceFinder.running = false := rfl
  refine ⟨?_, hrunning, hfinder, rfl, ⟨rfl, rfl, rfl⟩, fun h => ?_⟩
  · intro before x after heq
    have hmem : x ∈ calls := by simp [heq]
    simp only [calls, List.mem_cons, List.not_mem_nil, or_false] at hmem
    rcases hmem with rfl | rfl | rfl
    · exact ⟨fun _ => rfl, fun _ => rfl⟩
    · exact ⟨fun _ => rfl, fun _ => rfl⟩
    · trivial
  · have hserved := (h calls [] (by simp)).1 1 hrunning
    exact Bool.false_ne_true (hfinder.symm.trans hserved.deviceFinder)

end DjLink
