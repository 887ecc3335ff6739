import DjLink.Client
import DjLink.BeatCache
import DjLink.Library.Buckets

/-!
What an object hands over in the course of a run, and what it then holds. A
client of whatever kind is a fold over the events that `update()` notifies;
these are the frames of the run, each in the order of the queues, so that the
results on bucketed delivery apply to every client.
-/

namespace DjLink

open Beatlink LastWrite Buckets

/-- The queues, in the order in which `update()` drains them. -/
def Queue.drains : List Queue := [.beat, .deviceFound, .deviceLost, .deviceUpdate, .masterChanged]

theorem Queue.mem_drains (q : Queue) : q ∈ Queue.drains := by
  cases q <;> simp [Queue.drains]

theorem Queue.nodup_drains : Queue.drains.Nodup := by decide

theorem batched_eq_bucketed : batched = bucketed Event.queue Queue.drains := by
  funext frame
  simp [batched, bucketed, ofQueue, Queue.drains]

namespace OfxBeatLink

/-- The events that the `update()` calls of a run notify, in order. -/
def handedOver (self : OfxBeatLink) : List Input → List Event
  | [] => []
  | .callback cb :: inputs => (self.callback cb).handedOver inputs
  | .update :: inputs => self.update.2 ++ self.update.1.handedOver inputs

theorem handedOver_eq (self : OfxBeatLink) (frame : List Event)
    (hframe : ∀ q, self.queued q = ofQueue q frame) (inputs : List Input) :
    self.handedOver inputs = (framesFrom frame inputs).flatMap batched := by
  induction inputs generalizing self frame with
  | nil => rfl
  | cons input inputs ih =>
      cases input with
      | callback cb =>
          refine ih (self.callback cb) (frame ++ cb.event?.toList) fun q => ?_
          rw [queued_callback, hframe]
          simp [ofQueue]
      | update =>
          have hhanded : self.update.2 = batched frame := by
            rw [update_handed]
            simp only [hframe, batched]
          rw [handedOver, framesFrom, List.flatMap_cons, hhanded,
            ih self.update.1 [] fun q => by simp [ofQueue]]

/-- From a new object on, a run hands over its frames. -/
theorem handedOver_initial (inputs : List Input) :
    handedOver {} inputs = (frames inputs).flatMap batched :=
  handedOver_eq {} [] (fun q => by cases q <;> rfl) inputs

end OfxBeatLink

/-- Everything that arrives before an `update()` is in one of the frames. -/
theorem flatten_frames (inputs : List Input) :
    (frames (inputs ++ [.update])).flatten = inputs.filterMap Input.arrival? := by
  rw [frames, flatten_framesFrom, List.nil_append]

/-! ### The beat caches after a run -/

/-- What an event does to the entry of `d` in a map of last beats that forgets
a device when it is lost. -/
def Event.beatEntryOp (d : Int) : Event → Option (Option OfxBeatLinkBeat)
  | .beat ofBeat => if ofBeat.deviceNumber = d then some (some ofBeat) else none
  | .deviceLost device => if device.deviceNumber = d then some none else none
  | _ => none

/-- What an event does to a single last beat. -/
def Event.lastBeatOp : Event → Option OfxBeatLinkBeat
  | .beat ofBeat => some ofBeat
  | _ => none

/-- What an event says of whether `d` is there. -/
def Event.listedOp (d : Int) : Event → Option Bool
  | .deviceFound device => if device.deviceNumber = d then some true else none
  | .deviceLost device => if device.deviceNumber = d then some false else none
  | _ => none

/-- What an event does to a status of `d` that is forgotten when `d` is lost. -/
def Event.statusEntryOp (d : Int) : Event → Option (Option OfxBeatLinkCdjStatus)
  | .deviceUpdate status => if status.deviceNumber = d then some (some status) else none
  | .deviceLost device => if device.deviceNumber = d then some none else none
  | _ => none

end DjLink
