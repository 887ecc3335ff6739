import DjLink.Batching
import DjLink.Examples.Osc
import DjLink.Library.Clamped

/-!
The clients that only count the devices: `example-beatsync`,
`example-metronome`, `example-bpm-display`, `example-ableton-link` and
`example-osc`. A found counts up, a lost counts down and not below zero. With
the beat that they keep to show, this is all they do with the events; the
animations are left out.

In a frame the founds are handed over before the losses, so a count cannot go
below zero on the way through a frame, only at its end. The `int` counts are
unbounded.
-/

namespace DjLink

open LastWrite Buckets

namespace Beatsync

structure OfApp where
  latestBeat : Option OfxBeatLinkBeat := none
  lastBeatTime : ℕ := 0
  deviceCount : Int := 0

namespace OfApp

def onBeat (self : OfApp) (now : ℕ) (beat : OfxBeatLinkBeat) : OfApp :=
  { self with latestBeat := some beat, lastBeatTime := now }

def onDeviceFound (self : OfApp) (_device : OfxBeatLinkDevice) : OfApp :=
  { self with deviceCount := self.deviceCount + 1 }

def onDeviceLost (self : OfApp) (_device : OfxBeatLinkDevice) : OfApp :=
  { self with deviceCount := max 0 (self.deviceCount - 1) }

def handle (self : OfApp) (timedEvent : ℕ × Event) : OfApp :=
  match timedEvent.2 with
  | .beat beat => self.onBeat timedEvent.1 beat
  | .deviceFound device => self.onDeviceFound device
  | .deviceLost device => self.onDeviceLost device
  | .deviceUpdate _ => self
  | .masterChanged _ => self

end OfApp

end Beatsync

namespace Metronome

structure OfApp where
  latestBeat : Option OfxBeatLinkBeat := none
  lastBeatTime : ℕ := 0
  deviceCount : Int := 0

namespace OfApp

def onBeat (self : OfApp) (now : ℕ) (beat : OfxBeatLinkBeat) : OfApp :=
  { self with latestBeat := some beat, lastBeatTime := now }

def onDeviceFound (self : OfApp) (_device : OfxBeatLinkDevice) : OfApp :=
  { self with deviceCount := self.deviceCount + 1 }

def onDeviceLost (self : OfApp) (_device : OfxBeatLinkDevice) : OfApp :=
  { self with deviceCount := max 0 (self.deviceCount - 1) }

def handle (self : OfApp) (timedEvent : ℕ × Event) : OfApp :=
  match timedEvent.2 with
  | .beat beat => self.onBeat timedEvent.1 beat
  | .deviceFound device => self.onDeviceFound device
  | .deviceLost device => self.onDeviceLost device
  | .deviceUpdate _ => self
  | .masterChanged _ => self

end OfApp

end Metronome

namespace BpmDisplay

structure OfApp where
  currentBpm : Float := 0.0
  currentBeat : Int := 1
  masterDeviceName : String := ""
  connectedDevices : Int := 0

namespace OfApp

def onBeat (self : OfApp) (beat : OfxBeatLinkBeat) : OfApp :=
  { self with
    currentBpm := beat.bpm
    currentBeat := beat.beatWithinBar
    masterDeviceName := beat.deviceName }

def onDeviceFound (self : OfApp) (_device : OfxBeatLinkDevice) : OfApp :=
  { self with connectedDevices := self.connectedDevices + 1 }

def onDeviceLost (self : OfApp) (_device : OfxBeatLinkDevice) : OfApp :=
  let self := { self with connectedDevices := self.connectedDevices - 1 }
  if self.connectedDevices < 0 then { self with connectedDevices := 0 } else self

def handle (self : OfApp) : Event → OfApp
  | .beat beat => self.onBeat beat
  | .deviceFound device => self.onDeviceFound device
  | .deviceLost device => self.onDeviceLost device
  | .deviceUpdate _ => self
  | .masterChanged _ => self

/-- The part of `update()` that follows `beatLink.update()`; `beat` is what
`getLatestBeat()` returns. -/
def poll (self : OfApp) (beat : OfxBeatLinkBeat) : OfApp :=
  if beat.bpm > 0 then
    { self with currentBpm := beat.bpm, masterDeviceName := beat.deviceName }
  else self

end OfApp

end BpmDisplay

namespace AbletonLink

structure OfApp where
  currentBpm : Float := 120.0
  currentBeat : Int := 1
  masterDevice : String := ""
  connectedDjLinkDevices : Int := 0

namespace OfApp

def onBeat (self : OfApp) (beat : OfxBeatLinkBeat) : OfApp :=
  { self with
    currentBpm := beat.bpm
    currentBeat := beat.beatWithinBar
    masterDevice := beat.deviceName }

def onDeviceFound (self : OfApp) (_device : OfxBeatLinkDevice) : OfApp :=
  { self with connectedDjLinkDevices := self.connectedDjLinkDevices + 1 }

def onDeviceLost (self : OfApp) (_device : OfxBeatLinkDevice) : OfApp :=
  let self := { self with connectedDjLinkDevices := self.connectedDjLinkDevices - 1 }
  if self.connectedDjLinkDevices < 0 then { self with connectedDjLinkDevices := 0 } else self

def handle (self : OfApp) : Event → OfApp
  | .beat beat => self.onBeat beat
  | .deviceFound device => self.onDeviceFound device
  | .deviceLost device => self.onDeviceLost device
  | .deviceUpdate _ => self
  | .masterChanged _ => self

end OfApp

end AbletonLink

/-! ### Counting founds and losses -/

/-- What an event adds to a count of devices. -/
def Event.delta : Event → Int
  | .deviceFound _ => 1
  | .deviceLost _ => -1
  | _ => 0

/-- `read` is a count of the devices with a floor at zero. -/
def CountsDevices {σ α : Type} (handle : σ → α → σ) (event : α → Event) (read : σ → Int) : Prop :=
  ∀ s a, 0 ≤ read s → read (handle s a) = Clamped.add (read s) (event a).delta

theorem CountsDevices.foldl {σ α : Type} {handle : σ → α → σ} {event : α → Event}
    {read : σ → Int} (h : CountsDevices handle event read) {s : σ} (hs : 0 ≤ read s)
    (events : List α) :
    read (events.foldl handle s) =
      ((events.map event).map Event.delta).foldl Clamped.add (read s) := by
  induction events using List.reverseRecOn with
  | nil => rfl
  | append_singleton events a ih =>
      rw [List.foldl_concat, h _ _ (by rw [ih]; exact Clamped.foldl_add_nonneg hs _), ih,
        List.map_append, List.map_append, List.map_singleton, List.map_singleton,
        List.foldl_concat]

/-- The devices announced so far that have not been lost, as a number: founds
less losses among the arrivals. -/
def announced (inputs : List Input) : Int :=
  ((inputs.filterMap Input.arrival?).map Event.delta).sum

theorem Event.delta_nonneg {e : Event} (h : e.queue ≠ .deviceLost) : 0 ≤ e.delta := by
  cases e <;> simp_all [Event.queue, Event.delta]

theorem Event.delta_nonpos {e : Event} (h : e.queue ≠ .deviceFound) : e.delta ≤ 0 := by
  cases e <;> simp_all [Event.queue, Event.delta]

/-- A frame is clamped at most once, at its end. -/
theorem foldl_delta_batched {c : Int} (hc : 0 ≤ c) (frame : List Event) :
    ((batched frame).map Event.delta).foldl Clamped.add c =
      Clamped.add c (frame.map Event.delta).sum := by
  -- the founds are drained before the losses: the count goes up first and then down
  let up := (ofQueue .beat frame ++ ofQueue .deviceFound frame).map Event.delta
  let down := (ofQueue .deviceLost frame ++ ofQueue .deviceUpdate frame ++
    ofQueue .masterChanged frame).map Event.delta
  have hsplit : (batched frame).map Event.delta = up ++ down := by
    simp [up, down, batched]
  have hup : ∀ d ∈ up, 0 ≤ d := by
    intro d hd
    obtain ⟨e, he, rfl⟩ := List.mem_map.mp hd
    apply Event.delta_nonneg
    rcases List.mem_append.mp he with he | he <;> rw [queue_of_mem_ofQueue he] <;> decide
  have hdown : ∀ d ∈ down, d ≤ 0 := by
    intro d hd
    obtain ⟨e, he, rfl⟩ := List.mem_map.mp hd
    apply Event.delta_nonpos
    simp only [List.mem_append] at he
    rcases he with (he | he) | he <;> rw [queue_of_mem_ofQueue he] <;> decide
  have hsum : (up ++ down).sum = (frame.map Event.delta).sum := by
    rw [← hsplit]
    have hperm : List.Perm (batched frame) frame := by
      rw [batched_eq_bucketed]
      exact bucketed_perm Queue.nodup_drains fun e _ => Queue.mem_drains e.queue
    exact (hperm.map Event.delta).sum_eq
  rw [hsplit, Clamped.foldl_add_up_down hc hup hdown, hsum]

theorem foldl_delta_frames {c : Int} (hc : 0 ≤ c) (frames : List (List Event)) :
    ((frames.flatMap batched).map Event.delta).foldl Clamped.add c =
      (frames.map fun frame => (frame.map Event.delta).sum).foldl Clamped.add c := by
  induction frames generalizing c with
  | nil => rfl
  | cons frame frames ih =>
      rw [List.flatMap_cons, List.map_append, List.foldl_append, foldl_delta_batched hc,
        ih (Clamped.add_nonneg ..)]
      rfl

/-- What holds at every cut between frames holds at every `update()`. -/
theorem forall_frames_iff (P : List Event → Prop) (frame : List Event) (inputs : List Input) :
    (∀ earlier later, framesFrom frame inputs = earlier ++ later → P earlier.flatten) ↔
      P [] ∧ ∀ before after, inputs = before ++ .update :: after →
        P (frame ++ before.filterMap Input.arrival?) := by
  induction inputs generalizing P frame with
  | nil =>
      constructor
      · intro h
        exact ⟨h [] [] rfl, fun before after heq => by simp at heq⟩
      · rintro ⟨hnil, -⟩ earlier later heq
        obtain ⟨rfl, -⟩ : earlier = [] ∧ later = [] := by simpa [framesFrom] using heq.symm
        exact hnil
  | cons input inputs ih =>
      cases input with
      | callback cb =>
          rw [framesFrom, ih]
          refine and_congr_right fun _ => ⟨?_, ?_⟩
          · intro h before after heq
            cases before with
            | nil => simp at heq
            | cons x before =>
                obtain ⟨rfl, hinputs⟩ := List.cons.inj heq
                have hrest := h before after hinputs
                rw [List.append_assoc] at hrest
                cases hcb : cb.event? <;> simpa [List.filterMap_cons, Input.arrival?, hcb] using hrest
          · intro h before after heq
            have hrest := h (.callback cb :: before) after (by rw [heq, List.cons_append])
            cases hcb : cb.event? <;> simpa [List.filterMap_cons, Input.arrival?, hcb] using hrest
      | update =>
          have hrest := ih (fun events => P (frame ++ events)) []
          rw [List.append_nil] at hrest
          constructor
          · intro h
            have hall := hrest.mp fun earlier later heq =>
              h (frame :: earlier) later (by rw [framesFrom, heq, List.cons_append])
            refine ⟨h [] _ rfl, fun before after heq => ?_⟩
            cases before with
            | nil => simpa using hall.1
            | cons x before =>
                obtain ⟨rfl, hinputs⟩ := List.cons.inj heq
                simpa [List.filterMap_cons, Input.arrival?] using hall.2 before after hinputs
          · rintro ⟨hnil, h⟩ earlier later heq
            cases earlier with
            | nil => exact hnil
            | cons x earlier =>
                rw [framesFrom, List.cons_append] at heq
                obtain ⟨rfl, hframes⟩ := List.cons.inj heq
                refine hrest.mpr ⟨?_, fun before after hsplit => ?_⟩ earlier later hframes
                · simpa using h [] inputs rfl
                · have hp := h (.update :: before) after (by rw [hsplit, List.cons_append])
                  simpa [List.filterMap_cons, Input.arrival?] using hp

/-- At every `update()` of a run no more losses than founds have arrived. -/
def Balanced (inputs : List Input) : Prop :=
  ∀ before after, inputs = before ++ .update :: after → 0 ≤ announced before

/-- A count that goes by the events handed over is a count by frames. -/
theorem foldl_delta_handedOver (inputs : List Input) :
    ((OfxBeatLink.handedOver {} (inputs ++ [.update])).map Event.delta).foldl Clamped.add 0 =
        ((frames (inputs ++ [.update])).map fun frame => (frame.map Event.delta).sum).foldl
          Clamped.add 0 ∧
      announced inputs =
        0 + ((frames (inputs ++ [.update])).map fun frame => (frame.map Event.delta).sum).sum := by
  constructor
  · rw [OfxBeatLink.handedOver_initial, foldl_delta_frames (Int.le_refl 0)]
  · rw [announced, ← flatten_frames, List.map_flatten, List.sum_flatten, List.map_map,
      Int.zero_add]
    rfl

theorem announced_le_count (inputs : List Input) :
    announced inputs ≤
      ((OfxBeatLink.handedOver {} (inputs ++ [.update])).map Event.delta).foldl Clamped.add 0 := by
  obtain ⟨hcount, hsum⟩ := foldl_delta_handedOver inputs
  rw [hcount, hsum]
  exact Clamped.sum_le_foldl_add 0 _

theorem count_eq_announced_iff (inputs : List Input) :
    ((OfxBeatLink.handedOver {} (inputs ++ [.update])).map Event.delta).foldl Clamped.add 0 =
        announced inputs ↔ Balanced (inputs ++ [.update]) := by
  let nets := (frames (inputs ++ [.update])).map fun frame => (frame.map Event.delta).sum
  have hcuts : (∀ before after, nets = before ++ after → 0 ≤ 0 + before.sum) ↔
      ∀ earlier later, frames (inputs ++ [.update]) = earlier ++ later →
        0 ≤ (earlier.flatten.map Event.delta).sum := by
    have hnets (earlier : List (List Event)) :
        0 + (earlier.map fun frame => (frame.map Event.delta).sum).sum =
          (earlier.flatten.map Event.delta).sum := by
      rw [List.map_flatten, List.sum_flatten, List.map_map, Int.zero_add]
      rfl
    constructor
    · intro h earlier later heq
      rw [← hnets]
      exact h _ (later.map fun frame => (frame.map Event.delta).sum) (by simp [nets, heq])
    · intro h before after heq
      obtain ⟨earlier, later, hsplit, rfl, -⟩ := List.map_eq_append_iff.mp heq
      rw [hnets]
      exact h earlier later hsplit
  obtain ⟨hcount, hsum⟩ := foldl_delta_handedOver inputs
  rw [hcount, hsum, Clamped.foldl_add_eq_iff (Int.le_refl 0), hcuts, frames,
    forall_frames_iff fun events => 0 ≤ (events.map Event.delta).sum]
  exact and_iff_right (Int.le_refl 0)

theorem CountsDevices.announced {σ α : Type} {handle : σ → α → σ} {event : α → Event}
    {read : σ → Int} (h : CountsDevices handle event read) {s : σ} (hs : read s = 0)
    {events : List α} (inputs : List Input)
    (hevents : events.map event = OfxBeatLink.handedOver {} (inputs ++ [.update])) :
    announced inputs ≤ read (events.foldl handle s) ∧
      (read (events.foldl handle s) = announced inputs ↔ Balanced (inputs ++ [.update])) := by
  rw [h.foldl (by omega), hevents, hs]
  exact ⟨announced_le_count inputs, count_eq_announced_iff inputs⟩

end DjLink
