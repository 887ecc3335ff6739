import DjLink.Lifecycle
import DjLink.Library.LastWrite

/-!
The cache of the latest status. Only the update listener writes it, and only
to add: neither the loss of a device nor the end of the `VirtualCdj` session
removes an entry. It is therefore the register of the last status received
from each device, and it reports current statuses exactly as long as nothing
has happened since to make one of them obsolete.
-/

namespace DjLink

open Beatlink LastWrite

/-- What happens to an object in the life of its status cache. -/
inductive StatusInput where
  | startVirtualCdj (deviceNumber : Int) (started : Bool) (assigned : UInt8)
  | stopVirtualCdj
  /-- `VirtualCdj` tells its update listeners of a status. -/
  | deviceUpdate (now : Nat) (update : DeviceUpdate)
  | onDeviceFound (device : DeviceAnnouncement)
  | onDeviceLost (device : DeviceAnnouncement)

/-- What an object has to go by: the statuses it received, the losses, and the
ends of its sessions. -/
inductive StatusRecord where
  | received (now : Nat) (status : CdjStatus)
  | lost (deviceNumber : Int)
  | stopped

def StatusRecord.IsStatusOf (d : Int) : StatusRecord → Prop
  | .received _ status => status.deviceNumber = d
  | .lost _ => False
  | .stopped => False

def StatusRecord.Evicts (d : Int) : StatusRecord → Prop
  | .received _ _ => False
  | .lost n => n = d
  | .stopped => True

namespace Process

def statusStep (p : Process) (this : ObjectId) : StatusInput → Process
  | .startVirtualCdj deviceNumber started assigned =>
      p.step this (.startVirtualCdj deviceNumber started assigned)
  | .stopVirtualCdj => p.step this .stopVirtualCdj
  | .deviceUpdate now update => p.announce (.deviceUpdate now update)
  | .onDeviceFound device => p.runCallback (.onDeviceFound device) this
  | .onDeviceLost device => p.runCallback (.onDeviceLost device) this

def statusRun (p : Process) (this : ObjectId) (inputs : List StatusInput) : Process :=
  inputs.foldl (fun p input => p.statusStep this input) p

/-- An object receives a status while it runs `VirtualCdj`, and only a
`CdjStatus`. -/
def statusRecord (p : Process) (this : ObjectId) : StatusInput → Option StatusRecord
  | .deviceUpdate now update =>
      if p.isVirtualCdjRunning this then update.asCdjStatus.map (StatusRecord.received now)
      else none
  | .onDeviceLost device => some (.lost device.deviceNumber)
  | .stopVirtualCdj => some .stopped
  | .startVirtualCdj _ _ _ => none
  | .onDeviceFound _ => none

def statusHistory (p : Process) (this : ObjectId) : List StatusInput → List StatusRecord
  | [] => []
  | input :: inputs =>
      (p.statusRecord this input).toList ++ (p.statusStep this input).statusHistory this inputs

end Process

/-- `status` is the latest status received from `d`, and neither a loss of `d`
nor a `stopVirtualCdj` came after it. -/
def IsCurrentStatus (d : Int) (history : List StatusRecord) (now : Nat) (status : CdjStatus) :
    Prop :=
  ∃ before after, history = before ++ .received now status :: after ∧ status.deviceNumber = d ∧
    ∀ r ∈ after, ¬ r.IsStatusOf d ∧ ¬ r.Evicts d

/-- The getters report the current statuses and no others, each device once. -/
structure OfxBeatLink.StatusesCurrent (addon : OfxBeatLink) (history : List StatusRecord) :
    Prop where
  current : ∀ d now status, IsCurrentStatus d history now status →
    addon.getStatusFor d = some (convertCdjStatus now status)
  absent : ∀ d, (∀ now status, ¬ IsCurrentStatus d history now status) →
    addon.getStatusFor d = none
  listed : ∀ ofStatus, ofStatus ∈ addon.getCurrentStatuses ↔
    ∃ d now status, IsCurrentStatus d history now status ∧ convertCdjStatus now status = ofStatus
  once : (addon.getCurrentStatuses.map OfxBeatLinkCdjStatus.deviceNumber).Nodup

/-- The last status of every device came after every loss of it and after
every `stopVirtualCdj`. -/
def StatusesStand (history : List StatusRecord) : Prop :=
  ∀ before now status after, history = before ++ .received now status :: after →
    (∀ r ∈ after, ¬ r.IsStatusOf status.deviceNumber) →
    ∀ r ∈ after, ¬ r.Evicts status.deviceNumber

/-! ### The cache as a register -/

def statusEntryOp (d : Int) : StatusRecord → Option OfxBeatLinkCdjStatus
  | .received now status =>
      if status.deviceNumber = d then some (convertCdjStatus now status) else none
  | .lost _ => none
  | .stopped => none

theorem statusEntryOp_eq_none_iff (d : Int) (r : StatusRecord) :
    statusEntryOp d r = none ↔ ¬ r.IsStatusOf d := by
  cases r <;> simp [statusEntryOp, StatusRecord.IsStatusOf]

theorem lastWrite_statusEntryOp_eq_some_iff (d : Int) (history : List StatusRecord)
    (ofStatus : OfxBeatLinkCdjStatus) :
    lastWrite (statusEntryOp d) history = some ofStatus ↔
      ∃ before now status after, history = before ++ .received now status :: after ∧
        status.deviceNumber = d ∧ convertCdjStatus now status = ofStatus ∧
        ∀ r ∈ after, ¬ r.IsStatusOf d := by
  rw [lastWrite_eq_some_iff]
  constructor
  · rintro ⟨before, r, after, rfl, hop, hafter⟩
    cases r with
    | received now status =>
        simp only [statusEntryOp, Option.ite_none_right_eq_some, Option.some.injEq] at hop
        exact ⟨before, now, status, after, rfl, hop.1, hop.2,
          fun r hr => (statusEntryOp_eq_none_iff d r).mp (hafter r hr)⟩
    | lost n => cases hop
    | stopped => cases hop
  · rintro ⟨before, now, status, after, rfl, hd, rfl, hafter⟩
    exact ⟨before, .received now status, after, rfl, by simp [statusEntryOp, hd],
      fun r hr => (statusEntryOp_eq_none_iff d r).mpr (hafter r hr)⟩

/-- The cache holds the last status of every device. -/
def OfxBeatLink.CachesStatuses (self : OfxBeatLink) (history : List StatusRecord) : Prop :=
  ∀ d, self.latestStatuses[d]? = lastWrite (statusEntryOp d) history

theorem OfxBeatLink.CachesStatuses.concat {self self' : OfxBeatLink} {history : List StatusRecord}
    (h : self.CachesStatuses history) {r : Option StatusRecord}
    (hself : ∀ d, self'.latestStatuses[d]? =
      (r.bind (statusEntryOp d)).or self.latestStatuses[d]?) :
    self'.CachesStatuses (history ++ r.toList) := by
  intro d
  rw [hself, h d]
  cases r with
  | none => simp
  | some r => simp

theorem latestStatuses_callback (self : OfxBeatLink) (cb : Callback) (d : Int) :
    (self.callback cb).latestStatuses[d]? =
      (match cb with
        | .deviceUpdate now (.cdjStatus status) => statusEntryOp d (.received now status)
        | _ => none).or self.latestStatuses[d]? := by
  cases cb with
  | onBeat beat => rfl
  | onDeviceFound device => rfl
  | onDeviceLost device => rfl
  | deviceUpdate now update =>
      cases update with
      | other => rfl
      | cdjStatus status =>
          by_cases h : status.deviceNumber = d <;>
            simp [OfxBeatLink.callback, OfxBeatLink.deviceUpdate, DeviceUpdate.asCdjStatus,
              statusEntryOp, h]
  | masterChanged now update => rcases update with _ | _ | _ <;> rfl

theorem latestStatuses_startVirtualCdj (self : OfxBeatLink) (this : ObjectId) (lib : Singletons)
    (k : Int) (s : Bool) (a : UInt8) :
    (self.startVirtualCdj this lib k s a).2.1.latestStatuses = self.latestStatuses := by
  cases hrunning : self.virtualCdjRunning with
  | true => rw [self.startVirtualCdj_of_running this lib k s a hrunning]
  | false =>
      cases s with
      | true => rw [(self.startVirtualCdj_of_started this lib k a hrunning).2.1]
      | false => rw [(self.startVirtualCdj_of_failed this lib k a hrunning).2.1]

theorem latestStatuses_stopVirtualCdj (self : OfxBeatLink) (lib : Singletons) :
    (self.stopVirtualCdj lib).1.latestStatuses = self.latestStatuses := by
  cases hrunning : self.virtualCdjRunning with
  | true => rw [(self.stopVirtualCdj_of_running lib hrunning).1]
  | false => rw [self.stopVirtualCdj_of_not_running lib hrunning]

/-! ### Along a run -/

namespace Process

variable {p : Process} {this : ObjectId} {others : VirtualCdj} {history : List StatusRecord}

/-- The invariant of the runs of one object: its listeners are registered as
its flag says, and its cache holds the last status of every device. -/
def StatusInvariant (p : Process) (this : ObjectId) (others : VirtualCdj)
    (history : List StatusRecord) : Prop :=
  ∃ self, p.objects this = some self ∧ self.Owns this p.lib others ∧ self.CachesStatuses history

/-- An object is registered for updates once while it runs `VirtualCdj`, and
not at all otherwise. -/
theorem count_update_listeners {self : OfxBeatLink} (h : self.Owns this p.lib others) (now : Nat)
    (update : DeviceUpdate) :
    (p.lib.listeners (.deviceUpdate now update)).count this =
      if self.virtualCdjRunning then 1 else 0 := by
  have hcount := h.updates.count_captured
  have hsome := h.update_isSome
  rw [Singletons.listeners, hcount, ← hsome]
  cases self.deviceUpdateListener <;> rfl

theorem owns_callback {self : OfxBeatLink} (h : self.Owns this p.lib others) (cb : Callback) :
    (self.callback cb).Owns this p.lib others := by
  obtain ⟨-, hflag, hupdate, hmaster⟩ := self.callback_frame cb
  rw [OfxBeatLink.Owns, hflag, hupdate, hmaster]
  exact h

theorem StatusInvariant.step (h : p.StatusInvariant this others history) (input : StatusInput) :
    (p.statusStep this input).StatusInvariant this others
      (history ++ (p.statusRecord this input).toList) := by
  obtain ⟨self, hobject, howns, hcache⟩ := h
  cases input with
  | startVirtualCdj k s a =>
      refine ⟨(self.startVirtualCdj this p.lib k s a).2.1,
        step_objects_self hobject (.startVirtualCdj k s a), ?_, ?_⟩
      · rw [statusStep, step_lib hobject]
        exact howns.startVirtualCdj k s a
      · apply hcache.concat
        intro d
        rw [latestStatuses_startVirtualCdj]
        rfl
  | stopVirtualCdj =>
      refine ⟨(self.stopVirtualCdj p.lib).1, step_objects_self hobject .stopVirtualCdj, ?_, ?_⟩
      · rw [statusStep, step_lib hobject]
        exact howns.stopVirtualCdj
      · apply hcache.concat
        intro d
        rw [latestStatuses_stopVirtualCdj]
        rfl
  | deviceUpdate now update =>
      have hobjects := p.announce_objects (.deviceUpdate now update) this
      have hflag := isVirtualCdjRunning_of_some hobject
      rw [hobject, Option.map_some, count_update_listeners howns] at hobjects
      cases hrunning : self.virtualCdjRunning with
      | false =>
          rw [hrunning] at hobjects hflag
          refine ⟨self, hobjects, by simpa [statusStep] using howns, ?_⟩
          simpa [statusRecord, hflag] using hcache
      | true =>
          rw [hrunning] at hobjects hflag
          refine ⟨_, hobjects, by simpa [statusStep] using owns_callback howns _, ?_⟩
          apply hcache.concat
          intro d
          simp only [if_true, Function.iterate_one, latestStatuses_callback, statusRecord, hflag]
          cases update <;> rfl
  | onDeviceFound device =>
      refine ⟨_, (runCallback_self p _ this).trans (by rw [hobject]; rfl),
        owns_callback howns (.onDeviceFound device), ?_⟩
      apply hcache.concat
      intro d
      rfl
  | onDeviceLost device =>
      refine ⟨_, (runCallback_self p _ this).trans (by rw [hobject]; rfl),
        owns_callback howns (.onDeviceLost device), ?_⟩
      apply hcache.concat
      intro d
      rfl

theorem StatusInvariant.run (h : p.StatusInvariant this others history)
    (inputs : List StatusInput) :
    (p.statusRun this inputs).StatusInvariant this others
      (history ++ p.statusHistory this inputs) := by
  induction inputs generalizing p history with
  | nil => simpa [statusRun, statusHistory] using h
  | cons input inputs ih =>
      rw [statusHistory, ← List.append_assoc]
      exact ih (h.step input)

theorem Fresh.statusInvariant (h : p.Fresh this) :
    p.StatusInvariant this p.lib.virtualCdj [] := by
  have howned := h.listenersOwned
  rw [ListenersOwned, h.object] at howned
  exact ⟨{}, h.object, howned, fun d => by simp⟩

end Process

/-! ### What the getters report -/

theorem isCurrentStatus_iff {d : Int} {history : List StatusRecord} {now : Nat}
    {status : CdjStatus} :
    IsCurrentStatus d history now status ↔
      ∃ before after, history = before ++ .received now status :: after ∧
        status.deviceNumber = d ∧ (∀ r ∈ after, ¬ r.IsStatusOf d) ∧ ∀ r ∈ after, ¬ r.Evicts d := by
  constructor
  · rintro ⟨before, after, heq, hd, hafter⟩
    exact ⟨before, after, heq, hd, fun r hr => (hafter r hr).1, fun r hr => (hafter r hr).2⟩
  · rintro ⟨before, after, heq, hd, hstatus, hevicts⟩
    exact ⟨before, after, heq, hd, fun r hr => ⟨hstatus r hr, hevicts r hr⟩⟩

variable {self : OfxBeatLink} {history : List StatusRecord}

/-- What is listed is what is cached, under the number of its own device. -/
theorem mem_getCurrentStatuses (h : self.CachesStatuses history) (ofStatus : OfxBeatLinkCdjStatus) :
    ofStatus ∈ self.getCurrentStatuses ↔
      self.getStatusFor ofStatus.deviceNumber = some ofStatus := by
  rw [OfxBeatLink.getCurrentStatuses, OfxBeatLink.getStatusFor]
  constructor
  · intro hmem
    obtain ⟨⟨d, v⟩, hentry, rfl⟩ := List.mem_map.mp hmem
    have hcached := Std.ExtTreeMap.mem_toList_iff_getElem?_eq_some.mp hentry
    have hreg := hcached
    rw [h d] at hreg
    obtain ⟨_, now, status, _, _, rfl, rfl, _⟩ :=
      (lastWrite_statusEntryOp_eq_some_iff d history v).mp hreg
    exact hcached
  · intro hcached
    exact List.mem_map.mpr ⟨(ofStatus.deviceNumber, ofStatus),
      Std.ExtTreeMap.mem_toList_iff_getElem?_eq_some.mpr hcached, rfl⟩

theorem nodup_getCurrentStatuses (h : self.CachesStatuses history) :
    (self.getCurrentStatuses.map OfxBeatLinkCdjStatus.deviceNumber).Nodup := by
  have hkeys : self.getCurrentStatuses.map OfxBeatLinkCdjStatus.deviceNumber =
      self.latestStatuses.keys := by
    rw [← Std.ExtTreeMap.map_fst_toList_eq_keys, OfxBeatLink.getCurrentStatuses, List.map_map]
    refine List.map_congr_left fun ⟨d, v⟩ hentry => ?_
    have hreg := Std.ExtTreeMap.mem_toList_iff_getElem?_eq_some.mp hentry
    rw [h d] at hreg
    obtain ⟨_, now, status, _, _, rfl, rfl, _⟩ :=
      (lastWrite_statusEntryOp_eq_some_iff d history v).mp hreg
    rfl
  rw [hkeys]
  exact Std.ExtTreeMap.nodup_keys

/-- With every cached status still standing, the getters are exact. -/
theorem statusesCurrent_of_stand (h : self.CachesStatuses history)
    (hstand : StatusesStand history) : self.StatusesCurrent history := by
  have hcurrent : ∀ d now status, IsCurrentStatus d history now status →
      self.getStatusFor d = some (convertCdjStatus now status) := by
    intro d now status hstatus
    obtain ⟨before, after, heq, hd, hafter, -⟩ := isCurrentStatus_iff.mp hstatus
    rw [OfxBeatLink.getStatusFor, h d, lastWrite_statusEntryOp_eq_some_iff]
    exact ⟨before, now, status, after, heq, hd, rfl, hafter⟩
  have hconverse : ∀ d ofStatus, self.getStatusFor d = some ofStatus →
      ∃ now status, IsCurrentStatus d history now status ∧
        convertCdjStatus now status = ofStatus := by
    intro d ofStatus hget
    rw [OfxBeatLink.getStatusFor, h d, lastWrite_statusEntryOp_eq_some_iff] at hget
    obtain ⟨before, now, status, after, heq, rfl, rfl, hafter⟩ := hget
    exact ⟨now, status, isCurrentStatus_iff.mpr
      ⟨before, after, heq, rfl, hafter, hstand before now status after heq hafter⟩, rfl⟩
  refine ⟨hcurrent, ?_, ?_, nodup_getCurrentStatuses h⟩
  · intro d hnone
    cases hget : self.getStatusFor d with
    | none => rfl
    | some ofStatus =>
        obtain ⟨now, status, hstatus, -⟩ := hconverse d ofStatus hget
        exact absurd hstatus (hnone now status)
  · intro ofStatus
    rw [mem_getCurrentStatuses h]
    constructor
    · intro hget
      obtain ⟨now, status, hstatus, heq⟩ := hconverse _ ofStatus hget
      exact ⟨_, now, status, hstatus, heq⟩
    · rintro ⟨d, now, status, hstatus, rfl⟩
      obtain ⟨_, _, _, rfl, _⟩ := hstatus
      exact hcurrent _ now status ⟨_, _, ‹_›, rfl, ‹_›⟩

/-- An obsolete status is still reported. -/
theorem stand_of_statusesCurrent (h : self.CachesStatuses history)
    (hcurrent : self.StatusesCurrent history) : StatusesStand history := by
  intro before now status after heq hafter r hr hevicts
  have hget : self.getStatusFor status.deviceNumber = some (convertCdjStatus now status) := by
    rw [OfxBeatLink.getStatusFor, h, lastWrite_statusEntryOp_eq_some_iff]
    exact ⟨before, now, status, after, heq, rfl, rfl, hafter⟩
  rw [hcurrent.absent status.deviceNumber ?_] at hget
  · cases hget
  · intro now' status' hstatus
    obtain ⟨before', after', heq', hd, hafter', hevicts'⟩ := isCurrentStatus_iff.mp hstatus
    -- both are the last status of the device, so one of them is the other
    obtain ⟨-, -, rfl⟩ := last_split_unique
      (p := fun r : StatusRecord => r.IsStatusOf status.deviceNumber)
      (heq.symm.trans heq') rfl hd hafter hafter'
    exact hevicts' r hr hevicts

/-- **The status cache.** After any sequence of inputs of one object,
`getStatusFor` and `getCurrentStatuses` report exactly the current statuses if
and only if no device's last received status precedes a loss of the device or
a `stopVirtualCdj`. -/
theorem statuses_current_iff {p : Process} {this : ObjectId} (hfresh : p.Fresh this)
    (inputs : List StatusInput) :
    ∃ self, (p.statusRun this inputs).objects this = some self ∧
      (self.StatusesCurrent (p.statusHistory this inputs) ↔
        StatusesStand (p.statusHistory this inputs)) := by
  obtain ⟨self, hobject, -, hcache⟩ := hfresh.statusInvariant.run inputs
  rw [List.nil_append] at hcache
  exact ⟨self, hobject, stand_of_statusesCurrent hcache, statusesCurrent_of_stand hcache⟩

/-- Device 1 sends a status in the first session. -/
theorem statuses_current_of_one_status :
    let status : CdjStatus := { (default : CdjStatus) with deviceNumber := 1 }
    ∃ self, (Process.initial.statusRun 0 [.startVirtualCdj 0 true 5,
        .deviceUpdate 7 (.cdjStatus status)]).objects 0 = some self ∧
      self.getStatusFor 1 = some (convertCdjStatus 7 status) := by
  intro status
  obtain ⟨self, hobject, hiff⟩ := statuses_current_iff (Process.initial_fresh 0)
    [.startVirtualCdj 0 true 5, .deviceUpdate 7 (.cdjStatus status)]
  have hhistory : Process.initial.statusHistory 0 [.startVirtualCdj 0 true 5,
      .deviceUpdate 7 (.cdjStatus status)] = [.received 7 status] := rfl
  rw [hhistory] at hiff
  have hstand : StatusesStand [.received 7 status] := by
    intro before now status' after heq _ r hr
    obtain _ | ⟨_, _⟩ := before <;> simp_all
  have hcurrent : IsCurrentStatus 1 [.received 7 status] 7 status :=
    ⟨[], [], rfl, rfl, fun r hr => absurd hr List.not_mem_nil⟩
  exact ⟨self, hobject, (hiff.mpr hstand).current 1 7 status hcurrent⟩

/-- Device 1 sends a status and is lost: `getStatusFor(1)` still returns it.
`getLatestBeat(1)` and `getTempoMaster()` report nothing in such a situation. -/
theorem lost_status_reported :
    let status : CdjStatus := { (default : CdjStatus) with deviceNumber := 1 }
    let device : DeviceAnnouncement := { (default : DeviceAnnouncement) with deviceNumber := 1 }
    let inputs := [StatusInput.startVirtualCdj 0 true 5, .deviceUpdate 7 (.cdjStatus status),
      .onDeviceLost device, .stopVirtualCdj]
    ∃ self, (Process.initial.statusRun 0 inputs).objects 0 = some self ∧
      self.isVirtualCdjRunning = false ∧
      self.getStatusFor 1 = some (convertCdjStatus 7 status) ∧
      ¬ self.StatusesCurrent (Process.initial.statusHistory 0 inputs) := by
  intro status device inputs
  have hhistory : Process.initial.statusHistory 0 inputs =
      [.received 7 status, .lost 1, .stopped] := rfl
  rw [hhistory]
  have hget : ∃ self, (Process.initial.statusRun 0 inputs).objects 0 = some self ∧
      self.isVirtualCdjRunning = false ∧ self.getStatusFor 1 = some (convertCdjStatus 7 status) :=
    ⟨_, rfl, rfl, rfl⟩
  obtain ⟨self, hobject, hrunning, hget⟩ := hget
  refine ⟨self, hobject, hrunning, hget, fun hcurrent => ?_⟩
  rw [hcurrent.absent 1 ?_] at hget
  · cases hget
  · rintro now status' ⟨before, after, heq, -, hafter⟩
    obtain _ | ⟨_, before⟩ := before
    · obtain ⟨-, rfl⟩ : _ ∧ [StatusRecord.lost 1, .stopped] = after := by simpa using heq
      exact (hafter .stopped (by simp)).2 trivial
    · have hmem : StatusRecord.received now status' ∈ [StatusRecord.lost 1, .stopped] := by
        rw [(List.cons.inj heq).2]
        simp
      simp at hmem

end DjLink
