import DjLink.Addon
import DjLink.Library.LastWrite

/-!
The two caches of the latest beat: `latestBeats_`, keyed by device and read by
`getLatestBeat(deviceNumber)`, and `lastBeat_`, read by `getLatestBeat()`.
`onBeat` writes both, `onDeviceLost` evicts from the first only.

Both are registers of the callback history, so each getter is decided by one
entry of the history. The keyed cache is exact. The single field goes on
reporting a beat of a device that was lost after it, and that is the only way
in which the two getters come to disagree.

The caches are observed between the critical sections of a callback as well:
at such a point the callback in progress counts as received once its first
section, the one under `latestBeatsMutex_`, is done.
-/

namespace DjLink

open Beatlink LastWrite

def Callback.IsBeatOf (d : Int) : Callback → Prop
  | .onBeat beat => beat.deviceNumber = d
  | _ => False

def Callback.IsLossOf (d : Int) : Callback → Prop
  | .onDeviceLost device => device.deviceNumber = d
  | _ => False

/-- `beat` is the last beat received from `d` since the most recent loss of
`d`. -/
def IsLatestBeat (d : Int) (received : List Callback) (beat : Beat) : Prop :=
  ∃ before after, received = before ++ .onBeat beat :: after ∧ beat.deviceNumber = d ∧
    ∀ cb ∈ after, ¬ cb.IsBeatOf d ∧ ¬ cb.IsLossOf d

/-- `getLatestBeat(d)` is the last beat received from `d` since its most
recent loss, and the empty beat where there is none. -/
def OfxBeatLink.LatestBeatExact (self : OfxBeatLink) (received : List Callback) : Prop :=
  ∀ d, (∀ beat, IsLatestBeat d received beat → self.getLatestBeat d = convertBeat beat) ∧
    ((∀ beat, ¬ IsLatestBeat d received beat) → self.getLatestBeat d = {})

/-- `getLatestBeat()` returns the empty beat or what `getLatestBeat(d)` returns
for the device it names. -/
def OfxBeatLink.LatestBeatsAgree (self : OfxBeatLink) : Prop :=
  self.getLatestBeatAny ≠ {} →
    self.getLatestBeat self.getLatestBeatAny.deviceNumber = self.getLatestBeatAny

/-- The device of the last beat has not been lost since that beat, unless that
beat is indistinguishable from the empty one. -/
def LastBeatStands (received : List Callback) : Prop :=
  ∀ before beat after, received = before ++ .onBeat beat :: after →
    (∀ cb ∈ after, ∀ d, ¬ cb.IsBeatOf d) →
    (∀ cb ∈ after, ¬ cb.IsLossOf beat.deviceNumber) ∨ convertBeat beat = {}

/-! ### The caches as registers -/

def beatEntryOp (d : Int) : Callback → Option (Option OfxBeatLinkBeat)
  | .onBeat beat => if beat.deviceNumber = d then some (some (convertBeat beat)) else none
  | .onDeviceLost device => if device.deviceNumber = d then some none else none
  | _ => none

def lastBeatOp : Callback → Option OfxBeatLinkBeat
  | .onBeat beat => some (convertBeat beat)
  | _ => none

theorem latestBeats_callback (self : OfxBeatLink) (cb : Callback) (d : Int) :
    (self.callback cb).latestBeats[d]? = (beatEntryOp d cb).getD self.latestBeats[d]? := by
  cases cb with
  | onBeat beat =>
      by_cases h : beat.deviceNumber = d <;>
        simp [OfxBeatLink.callback, OfxBeatLink.onBeat, beatEntryOp, h]
  | onDeviceFound device => rfl
  | onDeviceLost device =>
      by_cases h : device.deviceNumber = d <;>
        simp [OfxBeatLink.callback, OfxBeatLink.onDeviceLost, beatEntryOp, h]
  | deviceUpdate now update => cases update <;> rfl
  | masterChanged now update => rcases update with _ | _ | _ <;> rfl

theorem lastBeat_callback (self : OfxBeatLink) (cb : Callback) :
    (self.callback cb).lastBeat = (lastBeatOp cb).getD self.lastBeat := by
  cases cb with
  | onBeat beat => rfl
  | onDeviceFound device => rfl
  | onDeviceLost device => rfl
  | deviceUpdate now update => cases update <;> rfl
  | masterChanged now update => rcases update with _ | _ | _ <;> rfl

def OfxBeatLink.runCallbacks (self : OfxBeatLink) (cbs : List Callback) : OfxBeatLink :=
  cbs.foldl OfxBeatLink.callback self

theorem latestBeats_runCallbacks (cbs : List Callback) (d : Int) :
    (OfxBeatLink.runCallbacks {} cbs).latestBeats[d]? =
      (lastWrite (beatEntryOp d) cbs).getD none := by
  have h := foldl_eq_lastWrite (fun self : OfxBeatLink => self.latestBeats[d]?)
    OfxBeatLink.callback (beatEntryOp d) (fun self cb => latestBeats_callback self cb d) {} cbs
  simpa [OfxBeatLink.runCallbacks] using h

theorem lastBeat_runCallbacks (cbs : List Callback) :
    (OfxBeatLink.runCallbacks {} cbs).lastBeat = (lastWrite lastBeatOp cbs).getD {} :=
  foldl_eq_lastWrite OfxBeatLink.lastBeat OfxBeatLink.callback lastBeatOp lastBeat_callback {} cbs

theorem beatEntryOp_eq_none_iff (d : Int) (cb : Callback) :
    beatEntryOp d cb = none ↔ ¬ cb.IsBeatOf d ∧ ¬ cb.IsLossOf d := by
  cases cb <;> simp [beatEntryOp, Callback.IsBeatOf, Callback.IsLossOf]

theorem lastBeatOp_eq_none_iff (cb : Callback) :
    lastBeatOp cb = none ↔ ∀ d, ¬ cb.IsBeatOf d := by
  cases cb <;> simp [lastBeatOp, Callback.IsBeatOf]

/-- The register of `d` holds a beat exactly when `d` has a latest beat. -/
theorem lastWrite_beatEntryOp_eq_some_iff (d : Int) (cbs : List Callback)
    (ofBeat : OfxBeatLinkBeat) :
    lastWrite (beatEntryOp d) cbs = some (some ofBeat) ↔
      ∃ beat, IsLatestBeat d cbs beat ∧ convertBeat beat = ofBeat := by
  rw [lastWrite_eq_some_iff]
  constructor
  · rintro ⟨before, cb, after, rfl, hop, hafter⟩
    cases cb with
    | onBeat beat =>
        simp only [beatEntryOp, Option.ite_none_right_eq_some, Option.some.injEq] at hop
        exact ⟨beat, ⟨before, after, rfl, hop.1,
          fun cb hcb => (beatEntryOp_eq_none_iff d cb).mp (hafter cb hcb)⟩, hop.2⟩
    | onDeviceLost device => simp [beatEntryOp] at hop
    | onDeviceFound device => simp [beatEntryOp] at hop
    | deviceUpdate now update => simp [beatEntryOp] at hop
    | masterChanged now update => simp [beatEntryOp] at hop
  · rintro ⟨beat, ⟨before, after, rfl, hd, hafter⟩, rfl⟩
    exact ⟨before, .onBeat beat, after, rfl, by simp [beatEntryOp, hd],
      fun cb hcb => (beatEntryOp_eq_none_iff d cb).mpr (hafter cb hcb)⟩

/-! ### The keyed cache is exact -/

theorem latestBeatExact_runCallbacks (cbs : List Callback) :
    (OfxBeatLink.runCallbacks {} cbs).LatestBeatExact cbs := by
  intro d
  have hcache := latestBeats_runCallbacks cbs d
  refine ⟨fun beat hbeat => ?_, fun hnone => ?_⟩
  · have hreg := (lastWrite_beatEntryOp_eq_some_iff d cbs _).mpr ⟨beat, hbeat, rfl⟩
    rw [hreg, Option.getD_some] at hcache
    simp [OfxBeatLink.getLatestBeat, hcache]
  · cases hreg : lastWrite (beatEntryOp d) cbs with
    | none =>
        rw [hreg, Option.getD_none] at hcache
        simp [OfxBeatLink.getLatestBeat, hcache]
    | some entry =>
        cases entry with
        | none =>
            rw [hreg, Option.getD_some] at hcache
            simp [OfxBeatLink.getLatestBeat, hcache]
        | some ofBeat =>
            obtain ⟨beat, hbeat, -⟩ := (lastWrite_beatEntryOp_eq_some_iff d cbs ofBeat).mp hreg
            exact absurd hbeat (hnone beat)

/-! ### The single field against the keyed cache -/

/-- After its last beat, the entry of a beat's device is that beat if the
device still stands and empty if it was lost. -/
theorem getLatestBeat_of_last_beat (before : List Callback) (beat : Beat) {after : List Callback}
    (hafter : ∀ cb ∈ after, ∀ d, ¬ cb.IsBeatOf d) :
    ((∀ cb ∈ after, ¬ cb.IsLossOf beat.deviceNumber) →
      (OfxBeatLink.runCallbacks {} (before ++ .onBeat beat :: after)).getLatestBeat
        beat.deviceNumber = convertBeat beat) ∧
    ((∃ cb ∈ after, cb.IsLossOf beat.deviceNumber) →
      (OfxBeatLink.runCallbacks {} (before ++ .onBeat beat :: after)).getLatestBeat
        beat.deviceNumber = {}) := by
  have hexact := latestBeatExact_runCallbacks (before ++ .onBeat beat :: after) beat.deviceNumber
  refine ⟨fun hstands => ?_, fun ⟨loss, hloss, hlost⟩ => ?_⟩
  · exact hexact.1 beat ⟨before, after, rfl, rfl,
      fun cb hcb => ⟨hafter cb hcb _, hstands cb hcb⟩⟩
  · have hcache := latestBeats_runCallbacks (before ++ .onBeat beat :: after) beat.deviceNumber
    have hreg : lastWrite (beatEntryOp beat.deviceNumber) after = some none := by
      cases h : lastWrite (beatEntryOp beat.deviceNumber) after with
      | none =>
          have hnone := lastWrite_eq_none_iff.mp h loss hloss
          exact absurd hlost ((beatEntryOp_eq_none_iff _ _).mp hnone).2
      | some entry =>
          cases entry with
          | none => rfl
          | some ofBeat =>
              -- a beat in the register would be a beat received after the last one
              obtain ⟨late, ⟨_, _, rfl, hd, _⟩, _⟩ :=
                (lastWrite_beatEntryOp_eq_some_iff _ _ _).mp h
              exact absurd rfl (hafter (.onBeat late) (by simp) late.deviceNumber)
    rw [lastWrite_append, lastWrite_cons, hreg] at hcache
    simp at hcache
    simp [OfxBeatLink.getLatestBeat, hcache]

theorem latestBeatsAgree_runCallbacks_iff (cbs : List Callback) :
    (OfxBeatLink.runCallbacks {} cbs).LatestBeatsAgree ↔ LastBeatStands cbs := by
  have hlast := lastBeat_runCallbacks cbs
  cases hreg : lastWrite lastBeatOp cbs with
  | none =>
      -- no beat has been received, so both sides are vacuous
      rw [hreg, Option.getD_none] at hlast
      refine iff_of_true (fun hne => absurd hlast hne) ?_
      rintro before beat after rfl -
      have hnone := lastWrite_eq_none_iff.mp hreg (.onBeat beat) (by simp)
      simp [lastBeatOp] at hnone
  | some ofBeat =>
      rw [hreg, Option.getD_some] at hlast
      obtain ⟨before, cb, after, rfl, hop, hafter⟩ := lastWrite_eq_some_iff.mp hreg
      have hafter : ∀ cb ∈ after, ∀ d, ¬ cb.IsBeatOf d :=
        fun cb hcb => (lastBeatOp_eq_none_iff cb).mp (hafter cb hcb)
      cases cb with
      | onBeat beat =>
          obtain rfl : convertBeat beat = ofBeat := by simpa [lastBeatOp] using hop
          have hget := getLatestBeat_of_last_beat before beat hafter
          have hany : (OfxBeatLink.runCallbacks {} (before ++ .onBeat beat :: after)).getLatestBeatAny
              = convertBeat beat := hlast
          rw [OfxBeatLink.LatestBeatsAgree, hany, convertBeat_deviceNumber]
          constructor
          · intro hagree before' beat' after' heq hafter'
            obtain ⟨rfl, hbeat, rfl⟩ := last_split_unique
              (p := fun cb => ∃ d, cb.IsBeatOf d) heq ⟨_, rfl⟩ ⟨_, rfl⟩
              (fun cb hcb ⟨d, hd⟩ => hafter cb hcb d hd)
              (fun cb hcb ⟨d, hd⟩ => hafter' cb hcb d hd)
            obtain rfl : beat = beat' := by simpa using hbeat
            by_cases hlost : ∃ cb ∈ after, cb.IsLossOf beat.deviceNumber
            · right
              by_contra hne
              exact hne ((hagree hne).symm.trans (hget.2 hlost))
            · left
              simpa using hlost
          · intro hstands hne
            rcases hstands before beat after rfl hafter with hno | hempty
            · exact hget.1 hno
            · exact absurd hempty hne
      | onDeviceFound device => simp [lastBeatOp] at hop
      | onDeviceLost device => simp [lastBeatOp] at hop
      | deviceUpdate now update => simp [lastBeatOp] at hop
      | masterChanged now update => simp [lastBeatOp] at hop

/-! ### Observation points -/

/-- After `k` critical sections of a callback the caches are those of before
the callback if `k` is zero, and those of after it otherwise. -/
theorem caches_sections (self : OfxBeatLink) (cb : Callback) (k : Nat) :
    ((cb.sections.take k).foldl OfxBeatLink.runSection self).latestBeats =
        (if k = 0 then self else self.callback cb).latestBeats ∧
      ((cb.sections.take k).foldl OfxBeatLink.runSection self).lastBeat =
        (if k = 0 then self else self.callback cb).lastBeat := by
  cases k with
  | zero => exact ⟨rfl, rfl⟩
  | succ k =>
      cases cb with
      | onBeat beat =>
          cases k <;> simp [Callback.sections, OfxBeatLink.runSection, OfxBeatLink.push,
            OfxBeatLink.callback, OfxBeatLink.onBeat]
      | onDeviceFound device =>
          simp [Callback.sections, OfxBeatLink.runSection, OfxBeatLink.push,
            OfxBeatLink.callback, OfxBeatLink.onDeviceFound]
      | onDeviceLost device =>
          cases k <;> simp [Callback.sections, OfxBeatLink.runSection, OfxBeatLink.push,
            OfxBeatLink.callback, OfxBeatLink.onDeviceLost]
      | deviceUpdate now update =>
          cases update <;> cases k <;> simp [Callback.sections, OfxBeatLink.runSection,
            OfxBeatLink.push, OfxBeatLink.callback, OfxBeatLink.deviceUpdate,
            DeviceUpdate.asCdjStatus]
      | masterChanged now update =>
          rcases update with _ | _ | _ <;> simp [Callback.sections, OfxBeatLink.runSection,
            OfxBeatLink.push, OfxBeatLink.callback, OfxBeatLink.masterChanged,
            DeviceUpdate.asCdjStatus]

/-- What the two getters report depends on the caches only. -/
theorem latestBeatExact_congr {self other : OfxBeatLink} (received : List Callback)
    (h : self.latestBeats = other.latestBeats) :
    self.LatestBeatExact received ↔ other.LatestBeatExact received := by
  simp only [OfxBeatLink.LatestBeatExact, OfxBeatLink.getLatestBeat, h]

theorem latestBeatsAgree_congr {self other : OfxBeatLink}
    (h : self.latestBeats = other.latestBeats) (hlast : self.lastBeat = other.lastBeat) :
    self.LatestBeatsAgree ↔ other.LatestBeatsAgree := by
  simp only [OfxBeatLink.LatestBeatsAgree, OfxBeatLink.getLatestBeatAny,
    OfxBeatLink.getLatestBeat, h, hlast]

/-- **Coherence of the beat caches.** At every point where `latestBeatsMutex_`
is free, after any callbacks and `k` critical sections of the next, the keyed
getter is exact, and the getters agree if and only if the device of the last
beat has not been lost since. -/
theorem latest_beats_coherent_iff (cbs : List Callback) (cb : Callback) (k : Nat) :
    let self := (cb.sections.take k).foldl OfxBeatLink.runSection
      (OfxBeatLink.runCallbacks {} cbs)
    let received := if k = 0 then cbs else cbs ++ [cb]
    self.LatestBeatExact received ∧ self.LatestBeatsAgree ↔ LastBeatStands received := by
  intro self received
  have hcallback : OfxBeatLink.runCallbacks {} received =
      if k = 0 then OfxBeatLink.runCallbacks {} cbs
      else (OfxBeatLink.runCallbacks {} cbs).callback cb := by
    by_cases hk : k = 0 <;> simp [received, hk, OfxBeatLink.runCallbacks]
  obtain ⟨hbeats, hlast⟩ := caches_sections (OfxBeatLink.runCallbacks {} cbs) cb k
  rw [← hcallback] at hbeats hlast
  rw [latestBeatExact_congr received hbeats, latestBeatsAgree_congr hbeats hlast,
    latestBeatsAgree_runCallbacks_iff]
  exact and_iff_right (latestBeatExact_runCallbacks received)

/-- Device 1 beats and is lost: `getLatestBeat(1)` is empty, `getLatestBeat()`
still reports the beat. -/
theorem latest_beats_disagree_after_loss :
    let beat : Beat := { (default : Beat) with deviceNumber := 1 }
    let device : DeviceAnnouncement := { (default : DeviceAnnouncement) with deviceNumber := 1 }
    let cbs := [Callback.onBeat beat, .onDeviceLost device]
    let self := OfxBeatLink.runCallbacks {} cbs
    self.getLatestBeat 1 = {} ∧ self.getLatestBeatAny = convertBeat beat ∧
      ¬ (self.LatestBeatExact cbs ∧ self.LatestBeatsAgree) := by
  intro beat device cbs self
  have hget : self.getLatestBeat 1 = {} := rfl
  have hany : self.getLatestBeatAny = convertBeat beat := rfl
  refine ⟨hget, hany, fun ⟨_, hagree⟩ => ?_⟩
  have hne : convertBeat beat ≠ {} := by
    intro h
    have hnumber := congrArg OfxBeatLinkBeat.deviceNumber h
    simp [beat] at hnumber
  have hsame : self.getLatestBeat 1 = convertBeat beat := hagree hne
  exact hne (hsame.symm.trans hget)

end DjLink
