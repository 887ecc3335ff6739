import Mathlib.Data.List.Induction
import DjLink.Process

/-!
The life of the two `VirtualCdj` listeners of an object. Whatever the outcomes
of `VirtualCdj::start`, the list of listeners is at every moment the list of
the others, followed by the object's own listener while it reports that
`VirtualCdj` runs: a start that fails rolls its registration back, and the
removals find their pointer because no two listeners share an address.
-/

namespace DjLink

open Beatlink

/-- A list of listeners is that of the others, followed by the listener `own`
of the object `this`. No address below `next` is given to a new listener. -/
structure Owned (others listeners : List ListenerPtr) (own : Option ListenerPtr)
    (this : ObjectId) (next : Nat) : Prop where
  eq_append : listeners = others ++ own.toList
  others_spec : ∀ l ∈ others, l.captured ≠ this ∧ l.address < next
  own_spec : ∀ l ∈ own, l.captured = this ∧ l.address < next ∧ ∀ o ∈ others, o.address ≠ l.address

namespace Owned

variable {others listeners : List ListenerPtr} {own : Option ListenerPtr} {this : ObjectId}
variable {next next' : Nat}

theorem mono (h : Owned others listeners own this next) (hnext : next ≤ next') :
    Owned others listeners own this next' where
  eq_append := h.eq_append
  others_spec l hl := by
    have hspec := h.others_spec l hl
    exact ⟨hspec.1, by omega⟩
  own_spec l hl := by
    obtain ⟨hcaptured, haddress, hne⟩ := h.own_spec l hl
    exact ⟨hcaptured, by omega, hne⟩

/-- A new listener goes to the end of the list. -/
theorem add (h : Owned others listeners none this next) :
    Owned others (listeners ++ [⟨next, this⟩]) (some ⟨next, this⟩) this (next + 1) where
  eq_append := by
    rw [h.eq_append]
    simp
  others_spec := (h.mono (by omega)).others_spec
  own_spec l hl := by
    obtain rfl : ListenerPtr.mk next this = l := by simpa using hl
    refine ⟨rfl, Nat.lt_succ_self next, fun o ho => ?_⟩
    have haddress := (h.others_spec o ho).2
    show o.address ≠ next
    omega

/-- Removal by address takes out the own listener and nothing else. -/
theorem remove {l : ListenerPtr} (h : Owned others listeners (some l) this next) :
    Owned others (listeners.filter fun o => o.address ≠ l.address) none this next where
  eq_append := by
    have hkeep : others.filter (fun o => o.address ≠ l.address) = others :=
      List.filter_eq_self.mpr fun o ho => by
        simpa using (h.own_spec l rfl).2.2 o ho
    rw [h.eq_append, Option.toList_some, List.filter_append, hkeep]
    simp
  others_spec := h.others_spec
  own_spec l hl := by cases hl

/-- A listener that is added and removed again leaves the list as it was. -/
theorem add_remove (h : Owned others listeners none this next) :
    (listeners ++ [ListenerPtr.mk next this]).filter (fun o => o.address ≠ next) =
      listeners := by
  have hremoved := h.add.remove.eq_append
  rw [h.eq_append] at hremoved ⊢
  exact hremoved

theorem count_own {l : ListenerPtr} (h : Owned others listeners (some l) this next) :
    listeners.count l = 1 := by
  have habsent : l ∉ others := fun hl => (h.own_spec l rfl).2.2 l hl rfl
  rw [h.eq_append, List.count_append, List.count_eq_zero.mpr habsent]
  simp

theorem filter_others (h : Owned others listeners own this next) :
    listeners.filter (fun l => l.captured ≠ this) = others := by
  have hothers : others.filter (fun l => l.captured ≠ this) = others :=
    List.filter_eq_self.mpr fun l hl => by simpa using (h.others_spec l hl).1
  have hown : own.toList.filter (fun l => l.captured ≠ this) = [] :=
    List.filter_eq_nil_iff.mpr fun l hl => by
      simpa using (h.own_spec l (Option.mem_toList.mp hl)).1
  rw [h.eq_append, List.filter_append, hothers, hown, List.append_nil]

/-- How often the object is registered. -/
theorem count_captured (h : Owned others listeners own this next) :
    (listeners.map ListenerPtr.captured).count this = own.toList.length := by
  have habsent : this ∉ others.map ListenerPtr.captured := by
    rintro hmem
    obtain ⟨l, hl, hcaptured⟩ := List.mem_map.mp hmem
    exact (h.others_spec l hl).1 hcaptured
  rw [h.eq_append, List.map_append, List.count_append, List.count_eq_zero.mpr habsent]
  cases own with
  | none => rfl
  | some l =>
      have hcaptured := (h.own_spec l rfl).1
      simp [hcaptured]

theorem captured_ne_of_none (h : Owned others listeners none this next) :
    ∀ l ∈ listeners, l.captured ≠ this := by
  intro l hl
  rw [h.eq_append, Option.toList_none, List.append_nil] at hl
  exact (h.others_spec l hl).1

end Owned

/-- The invariant: each of the two lists is that of the others followed by the
listener that the object's pointer holds, and the pointers are null exactly
when the object reports that `VirtualCdj` does not run. -/
structure Singletons.ListenersOwned (lib : Singletons) (this : ObjectId) (others : VirtualCdj)
    (update master : Option ListenerPtr) (running : Bool) : Prop where
  updates : Owned others.updateListeners lib.virtualCdj.updateListeners update this lib.nextAddress
  masters : Owned others.masterListeners lib.virtualCdj.masterListeners master this lib.nextAddress
  update_isSome : update.isSome = running
  master_isSome : master.isSome = running

/-! ### One call -/

namespace Singletons.ListenersOwned

variable {lib lib' : Singletons} {this : ObjectId} {others : VirtualCdj}
variable {update master : Option ListenerPtr} {running : Bool}

/-- Whatever leaves `VirtualCdj` alone keeps the invariant. -/
theorem congr (h : lib.ListenersOwned this others update master running)
    (hlib : lib'.virtualCdj = lib.virtualCdj ∧ lib'.nextAddress = lib.nextAddress) :
    lib'.ListenersOwned this others update master running := by
  obtain ⟨hvirtualCdj, hnext⟩ := hlib
  refine ⟨?_, ?_, h.update_isSome, h.master_isSome⟩
  · rw [hvirtualCdj, hnext]
    exact h.updates
  · rw [hvirtualCdj, hnext]
    exact h.masters

/-- The pointers of an object that does not run `VirtualCdj` are null. -/
theorem eq_none (h : lib.ListenersOwned this others update master false) :
    update = none ∧ master = none :=
  ⟨Option.isSome_eq_false_iff.mp h.update_isSome |> Option.isNone_iff_eq_none.mp,
    Option.isSome_eq_false_iff.mp h.master_isSome |> Option.isNone_iff_eq_none.mp⟩

theorem eq_some (h : lib.ListenersOwned this others update master true) :
    ∃ u m, update = some u ∧ master = some m := by
  obtain ⟨u, hu⟩ := Option.isSome_iff_exists.mp h.update_isSome
  obtain ⟨m, hm⟩ := Option.isSome_iff_exists.mp h.master_isSome
  exact ⟨u, m, hu, hm⟩

end Singletons.ListenersOwned

namespace OfxBeatLink

/-- The invariant with the object's own pointers. -/
def Owns (self : OfxBeatLink) (this : ObjectId) (lib : Singletons) (others : VirtualCdj) : Prop :=
  lib.ListenersOwned this others self.deviceUpdateListener self.masterListener
    self.virtualCdjRunning

variable {self : OfxBeatLink} {this : ObjectId} {lib : Singletons} {others : VirtualCdj}

theorem Owns.start (h : self.Owns this lib others) (d b : Bool) :
    (self.start this lib d b).2.1.Owns this (self.start this lib d b).2.2 others := by
  rw [start_object]
  exact h.congr (self.start_virtualCdj this lib d b)

theorem Owns.stop (h : self.Owns this lib others) :
    (self.stop lib).1.Owns this (self.stop lib).2 others := by
  rw [stop_object]
  exact h.congr (self.stop_virtualCdj lib)

/-- An object that does not run `VirtualCdj` has no listener, and its pointers
are null. -/
theorem Owns.of_not_running (h : self.Owns this lib others)
    (hrunning : self.virtualCdjRunning = false) :
    (self.deviceUpdateListener = none ∧ self.masterListener = none) ∧
      Owned others.updateListeners lib.virtualCdj.updateListeners none this lib.nextAddress ∧
      Owned others.masterListeners lib.virtualCdj.masterListeners none this lib.nextAddress := by
  rw [Owns, hrunning] at h
  obtain ⟨hu, hm⟩ := h.eq_none
  rw [hu, hm] at h
  exact ⟨⟨hu, hm⟩, h.updates, h.masters⟩

/-- A failing `startVirtualCdj` leaves the lists, the pointers and the flag as
they were. -/
theorem Owns.startVirtualCdj_failed (h : self.Owns this lib others) {n : Int} {s : Bool}
    {a : UInt8} (hfail : (self.startVirtualCdj this lib n s a).1 = false) :
    let self' := (self.startVirtualCdj this lib n s a).2.1
    let lib' := (self.startVirtualCdj this lib n s a).2.2
    lib'.virtualCdj.updateListeners = lib.virtualCdj.updateListeners ∧
      lib'.virtualCdj.masterListeners = lib.virtualCdj.masterListeners ∧
      self'.deviceUpdateListener = self.deviceUpdateListener ∧
      self'.masterListener = self.masterListener ∧
      self'.virtualCdjRunning = self.virtualCdjRunning := by
  rw [startVirtualCdj_result, Bool.or_eq_false_iff] at hfail
  obtain ⟨hrunning, rfl⟩ := hfail
  obtain ⟨-, hself, hupdate, hmaster, -⟩ :=
    startVirtualCdj_of_failed self this lib n a hrunning
  obtain ⟨⟨hu, hm⟩, hupdates, hmasters⟩ := h.of_not_running hrunning
  have hmasters := hmasters.mono (Nat.le_succ lib.nextAddress)
  intro self' lib'
  refine ⟨hupdate.trans hupdates.add_remove, hmaster.trans hmasters.add_remove, ?_, ?_, ?_⟩
  · rw [show self' = _ from hself, hu]
  · rw [show self' = _ from hself, hm]
  · rw [show self' = _ from hself]

theorem Owns.startVirtualCdj (h : self.Owns this lib others) (n : Int) (s : Bool) (a : UInt8) :
    (self.startVirtualCdj this lib n s a).2.1.Owns this
      (self.startVirtualCdj this lib n s a).2.2 others := by
  cases hrunning : self.virtualCdjRunning with
  | true =>
      rw [startVirtualCdj_of_running self this lib n s a hrunning]
      exact h
  | false =>
      cases s with
      | false =>
          have hfail := (startVirtualCdj_of_failed self this lib n a hrunning).1
          obtain ⟨hupdate, hmaster, hu, hm, hflag⟩ := h.startVirtualCdj_failed hfail
          have hnext := (startVirtualCdj_finders self this lib n false a).2.2.2
          rw [Owns, hu, hm, hflag]
          refine ⟨?_, ?_, h.update_isSome, h.master_isSome⟩
          · rw [hupdate]
            exact h.updates.mono hnext
          · rw [hmaster]
            exact h.masters.mono hnext
      | true =>
          obtain ⟨-, hself, hupdate, hmaster, -⟩ :=
            startVirtualCdj_of_started self this lib n a hrunning
          have hnext := startVirtualCdj_nextAddress self this lib n true a hrunning
          obtain ⟨-, hupdates, hmasters⟩ := h.of_not_running hrunning
          rw [Owns, hself]
          refine ⟨?_, ?_, rfl, rfl⟩
          · rw [hupdate, hnext]
            exact hupdates.add.mono (Nat.le_succ _)
          · rw [hmaster, hnext]
            exact (hmasters.mono (Nat.le_succ lib.nextAddress)).add

theorem Owns.stopVirtualCdj (h : self.Owns this lib others) :
    (self.stopVirtualCdj lib).1.Owns this (self.stopVirtualCdj lib).2 others := by
  cases hrunning : self.virtualCdjRunning with
  | false =>
      rw [stopVirtualCdj_of_not_running self lib hrunning]
      exact h
  | true =>
      have howned := h
      rw [Owns, hrunning] at howned
      obtain ⟨u, m, hu, hm⟩ := howned.eq_some
      have hlistUpdate := howned.updates
      have hlistMaster := howned.masters
      rw [hu] at hlistUpdate
      rw [hm] at hlistMaster
      obtain ⟨hself, hlib⟩ := stopVirtualCdj_of_running self lib hrunning
      rw [Owns, hself, hlib, hu, hm]
      exact ⟨hlistUpdate.remove, hlistMaster.remove, rfl, rfl⟩

/-- A destroyed object leaves nothing behind. -/
theorem Owns.destroy (h : self.Owns this lib others) :
    (self.destroy lib).ListenersOwned this others none none false := by
  have hstopped := h.stopVirtualCdj
  have hflag : (self.stopVirtualCdj lib).1.virtualCdjRunning = false := by
    cases hrunning : self.virtualCdjRunning with
    | false => rw [stopVirtualCdj_of_not_running self lib hrunning, hrunning]
    | true => rw [(stopVirtualCdj_of_running self lib hrunning).1]
  rw [Owns, hflag] at hstopped
  obtain ⟨hu, hm⟩ := hstopped.eq_none
  rw [hu, hm] at hstopped
  rw [destroy_eq]
  refine hstopped.congr ?_
  cases self.running <;> exact ⟨rfl, rfl⟩

end OfxBeatLink

/-! ### Whole runs -/

namespace Process

/-- The invariant of a process, for an object that may have been destroyed. -/
def ListenersOwned (p : Process) (this : ObjectId) (others : VirtualCdj) : Prop :=
  match p.objects this with
  | some self => self.Owns this p.lib others
  | none => p.lib.ListenersOwned this others none none false

variable {p : Process} {this : ObjectId} {others : VirtualCdj}

theorem Fresh.listenersOwned (h : p.Fresh this) : p.ListenersOwned this p.lib.virtualCdj := by
  rw [ListenersOwned, h.object]
  have hown : ∀ (listeners : List ListenerPtr),
      (∀ l ∈ listeners, l.captured ≠ this ∧ l.address < p.lib.nextAddress) →
      Owned listeners listeners none this p.lib.nextAddress := by
    intro listeners hothers
    exact ⟨by simp, hothers, fun l hl => by cases hl⟩
  exact ⟨hown _ h.update, hown _ h.master, rfl, rfl⟩

theorem ListenersOwned.step (h : p.ListenersOwned this others) (c : Call) :
    (p.step this c).ListenersOwned this others := by
  cases hobject : p.objects this with
  | none => rwa [step_of_none hobject]
  | some self =>
      rw [ListenersOwned, hobject] at h
      rw [ListenersOwned, step_objects_self hobject, step_lib hobject]
      cases c with
      | start d b => exact h.start d b
      | stop => exact h.stop
      | startVirtualCdj n s a => exact h.startVirtualCdj n s a
      | stopVirtualCdj => exact h.stopVirtualCdj
      | destroy => exact h.destroy

theorem ListenersOwned.runOn (h : p.ListenersOwned this others) (calls : List Call) :
    (p.runOn this calls).ListenersOwned this others := by
  induction calls using List.reverseRecOn with
  | nil => exact h
  | append_singleton calls c ih =>
      rw [runOn_concat]
      exact ih.step c

/-- The life of the listeners of one object: registered exactly once and
pointed at while `VirtualCdj` runs, gone and forgotten otherwise, with the
listeners of the others untouched and failed starts rolled back. -/
structure ListenerLifecycle (p : Process) (this : ObjectId) (others : VirtualCdj) : Prop where
  running : ∀ self, p.objects this = some self → self.isVirtualCdjRunning = true →
    ∃ update master, self.deviceUpdateListener = some update ∧
      self.masterListener = some master ∧
      p.lib.virtualCdj.updateListeners.count update = 1 ∧
      p.lib.virtualCdj.masterListeners.count master = 1 ∧
      (p.lib.virtualCdj.updateListeners.map ListenerPtr.captured).count this = 1 ∧
      (p.lib.virtualCdj.masterListeners.map ListenerPtr.captured).count this = 1
  stopped : p.isVirtualCdjRunning this = false →
    (∀ self, p.objects this = some self →
      self.deviceUpdateListener = none ∧ self.masterListener = none) ∧
    (∀ l ∈ p.lib.virtualCdj.updateListeners, l.captured ≠ this) ∧
    ∀ l ∈ p.lib.virtualCdj.masterListeners, l.captured ≠ this
  others_kept :
    p.lib.virtualCdj.updateListeners.filter (fun l => l.captured ≠ this) =
        others.updateListeners ∧
      p.lib.virtualCdj.masterListeners.filter (fun l => l.captured ≠ this) =
        others.masterListeners
  rolled_back : ∀ self deviceNumber started assigned, p.objects this = some self →
    (self.startVirtualCdj this p.lib deviceNumber started assigned).1 = false →
    let self' := (self.startVirtualCdj this p.lib deviceNumber started assigned).2.1
    let lib' := (self.startVirtualCdj this p.lib deviceNumber started assigned).2.2
    lib'.virtualCdj.updateListeners = p.lib.virtualCdj.updateListeners ∧
      lib'.virtualCdj.masterListeners = p.lib.virtualCdj.masterListeners ∧
      self'.deviceUpdateListener = self.deviceUpdateListener ∧
      self'.masterListener = self.masterListener ∧
      self'.virtualCdjRunning = self.virtualCdjRunning

theorem ListenersOwned.of_some {self : OfxBeatLink} (h : p.ListenersOwned this others)
    (hobject : p.objects this = some self) : self.Owns this p.lib others := by
  rwa [ListenersOwned, hobject] at h

/-- In terms of the pointers that are left, whether or not the object is. -/
theorem ListenersOwned.exists (h : p.ListenersOwned this others) :
    ∃ update master,
      p.lib.ListenersOwned this others update master (p.isVirtualCdjRunning this) ∧
      ∀ self, p.objects this = some self →
        self.deviceUpdateListener = update ∧ self.masterListener = master := by
  rw [ListenersOwned] at h
  cases hobject : p.objects this with
  | none =>
      rw [hobject] at h
      refine ⟨none, none, ?_, fun self hself => by cases hself⟩
      simpa [isVirtualCdjRunning, hobject] using h
  | some self =>
      rw [hobject] at h
      refine ⟨self.deviceUpdateListener, self.masterListener, ?_, ?_⟩
      · rw [isVirtualCdjRunning, hobject]
        exact h
      · rintro self' hself
        obtain rfl : self = self' := Option.some.inj hself
        exact ⟨rfl, rfl⟩

end Process

/-- **Lifecycle of the `VirtualCdj` listeners.** After every sequence of calls
on one object, with every combination of outcomes. -/
theorem listener_lifecycle {p : Process} {this : ObjectId} (hfresh : p.Fresh this)
    (calls : List Call) : (p.runOn this calls).ListenerLifecycle this p.lib.virtualCdj := by
  have howned := hfresh.listenersOwned.runOn calls
  obtain ⟨update, master, hlib, hpointers⟩ := howned.exists
  refine ⟨?_, ?_, ⟨hlib.updates.filter_others, hlib.masters.filter_others⟩, ?_⟩
  · intro self hobject hrunning
    have hself : Singletons.ListenersOwned _ this _ self.deviceUpdateListener self.masterListener
        self.isVirtualCdjRunning := howned.of_some hobject
    rw [hrunning] at hself
    obtain ⟨u, m, hu, hm⟩ := hself.eq_some
    rw [hu, hm] at hself
    exact ⟨u, m, hu, hm, hself.updates.count_own, hself.masters.count_own,
      hself.updates.count_captured, hself.masters.count_captured⟩
  · intro hstopped
    rw [hstopped] at hlib
    obtain ⟨rfl, rfl⟩ := hlib.eq_none
    exact ⟨hpointers, hlib.updates.captured_ne_of_none, hlib.masters.captured_ne_of_none⟩
  · intro self n s a hobject hfail
    exact (howned.of_some hobject).startVirtualCdj_failed hfail

/-- With a listener of someone else registered: a start that fails, one that
succeeds, and the destruction. -/
theorem listener_lifecycle_of_retry :
    let other : ListenerPtr := ⟨0, 7⟩
    let p : Process :=
      { objects := fun _ => some {}
        lib := { virtualCdj := { updateListeners := [other] }, nextAddress := 1 } }
    let failed := p.runOn 0 [.startVirtualCdj 3 false 0]
    let retried := p.runOn 0 [.startVirtualCdj 3 false 0, .startVirtualCdj 3 true 0]
    let destroyed := p.runOn 0 [.startVirtualCdj 3 false 0, .startVirtualCdj 3 true 0, .destroy]
    (p.ListenerLifecycle 0 p.lib.virtualCdj ∧ failed.ListenerLifecycle 0 p.lib.virtualCdj ∧
      retried.ListenerLifecycle 0 p.lib.virtualCdj ∧
      destroyed.ListenerLifecycle 0 p.lib.virtualCdj) ∧
    failed.lib.virtualCdj.updateListeners = [other] ∧ failed.isVirtualCdjRunning 0 = false ∧
      retried.isVirtualCdjRunning 0 = true ∧
      (∃ update master, retried.lib.virtualCdj.updateListeners = [other, update] ∧
        retried.lib.virtualCdj.masterListeners = [master]) ∧
      destroyed.lib.virtualCdj.updateListeners = [other] := by
  intro other p failed retried destroyed
  have hfresh : p.Fresh 0 := by
    refine ⟨rfl, ?_, ?_, ?_, ?_, ?_⟩
    · exact List.not_mem_nil
    · exact List.not_mem_nil
    · exact List.not_mem_nil
    · intro l hl
      obtain rfl : l = other := List.mem_singleton.mp hl
      decide
    · intro l hl
      exact absurd hl List.not_mem_nil
  exact ⟨⟨listener_lifecycle hfresh [], listener_lifecycle hfresh _, listener_lifecycle hfresh _,
    listener_lifecycle hfresh _⟩, rfl, rfl, rfl, ⟨_, _, rfl, rfl⟩, rfl⟩

end DjLink
