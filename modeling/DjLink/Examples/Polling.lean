import DjLink.TempoMaster
import DjLink.Examples.Comprehensive
import DjLink.Examples.DeviceCount

/-!
Clients that follow the events and poll the addon as well. `update()` of
`example-bpm-display` hands over the events and then asks for the latest beat;
that of `example-comprehensive` asks for the tempo master. A receiver may run
between the two, so that what is polled is newer than what was handed over.

The argument is about a register of the client that the events of one queue
write. Its value once the queue is drained is that of the last write that has
arrived, and a poll cannot change that: it shows either what the client has
already or what is still in the queue.
-/

namespace DjLink

open Beatlink LastWrite

/-- One `update()` of an application: what arrives before the queues are
drained, and what arrives between that and the poll. -/
structure Frame where
  arrived : List Callback
  meanwhile : List Callback

/-- A client over its addon and the singleton that the addon polls. -/
structure Polled (σ : Type) where
  addon : OfxBeatLink
  virtualCdj : VirtualCdj
  client : σ

namespace Polled

variable {σ : Type}

def callback (self : Polled σ) (cb : Callback) : Polled σ where
  addon := self.addon.callback cb
  virtualCdj :=
    match cb with
    | .masterChanged _ update => { self.virtualCdj with tempoMaster := update }
    | _ => self.virtualCdj
  client := self.client

/-- `beatLink.update()`. -/
def drained (handle : σ → Event → σ) (self : Polled σ) : Polled σ :=
  { self with
    addon := self.addon.update.1
    client := self.addon.update.2.foldl handle self.client }

def frame (handle : σ → Event → σ) (poll : Polled σ → σ) (self : Polled σ) (f : Frame) : Polled σ :=
  let self := (f.arrived.foldl callback self).drained handle
  let self := f.meanwhile.foldl callback self
  { self with client := poll self }

/-- A new addon with `VirtualCdj` running. -/
def initial (client : σ) : Polled σ where
  addon := { virtualCdjRunning := true }
  virtualCdj := { running := true }
  client := client

end Polled

/-- What an arrival leaves as the tempo master of the singleton. -/
def tempoMasterOp (cb : Callback) : Option (Option DeviceUpdate) := announcementOp (.callback cb)

/-- The two things that are polled are what the arrivals say. -/
structure Polled.Offers {σ : Type} (app : Polled σ) (arrived : List Callback) : Prop where
  lastBeat : app.addon.lastBeat = (lastWrite lastBeatOp arrived).getD {}
  tempoMaster : app.virtualCdj.tempoMaster = (lastWrite tempoMasterOp arrived).getD none
  running : app.addon.virtualCdjRunning = true

namespace Polled

variable {σ : Type} {app : Polled σ} {arrived : List Callback}

theorem Offers.callback (h : app.Offers arrived) (cb : Callback) :
    (app.callback cb).Offers (arrived ++ [cb]) := by
  refine ⟨?_, ?_, (app.addon.callback_frame cb).2.1.trans h.running⟩
  · rw [lastWrite_concat, show (app.callback cb).addon.lastBeat = _ from
      lastBeat_callback app.addon cb, h.lastBeat]
    cases lastBeatOp cb <;> rfl
  · rw [lastWrite_concat]
    cases cb with
    | masterChanged now update => rfl
    | _ => exact h.tempoMaster

end Polled

/-! ### A register of the client -/

/-- The value that the register `read` will have once the queues are drained. -/
def Polled.settled {σ β : Type} (q : Queue) (op : Event → Option β) (read : σ → β)
    (app : Polled σ) : β :=
  (lastWrite op (app.addon.queued q)).getD (read app.client)

/-- A register that the events of `q` write, of which a poll makes nothing else
than what the last write made of it. -/
structure FollowedAndPolled {σ β : Type} (handle : σ → Event → σ) (poll : Polled σ → σ)
    (q : Queue) (op : Event → Option β) (read : σ → β) : Prop where
  writes : WrittenBy q op
  handle : ∀ s e, read (handle s e) = (op e).getD (read s)
  poll : ∀ app arrived b, app.Offers arrived →
    lastWrite op (arrived.filterMap Callback.event?) = some b → read app.client = b →
    read (poll app) = b

section Register

variable {σ β : Type} {handle : σ → Event → σ} {poll : Polled σ → σ} {q : Queue}
variable {op : Event → Option β} {read : σ → β}

/-- Of what is handed over only what was in `q` matters to the register. -/
theorem WrittenBy.lastWrite_update (hop : WrittenBy q op) (addon : OfxBeatLink) :
    lastWrite op addon.update.2 = lastWrite op (addon.queued q) := by
  have hother (r : Queue) (hr : r ≠ q) : lastWrite op (addon.queued r) = none := by
    rw [lastWrite_eq_none_iff]
    intro e he
    refine hop e ?_
    cases r <;> obtain ⟨x, -, rfl⟩ := List.mem_map.mp he <;> exact hr
  rw [OfxBeatLink.update_handed]
  simp only [lastWrite_append]
  cases q <;> simp [hother]

theorem Polled.client_drained (h : FollowedAndPolled handle poll q op read) (app : Polled σ) :
    read (app.drained handle).client = app.settled q op read := by
  rw [settled, ← h.writes.lastWrite_update]
  exact foldl_eq_lastWrite read handle op h.handle app.client _

theorem Polled.settled_drained (h : FollowedAndPolled handle poll q op read) (app : Polled σ) :
    (app.drained handle).settled q op read = app.settled q op read := by
  have hempty : (app.drained handle).addon.queued q = [] := app.addon.queued_update q
  rw [settled, hempty, ← client_drained h]
  rfl

/-- An arrival that writes sets the value to come, another leaves it. -/
theorem Polled.settled_callback (hop : WrittenBy q op) (app : Polled σ) (cb : Callback) :
    (app.callback cb).settled q op read = (cb.event?.bind op).getD (app.settled q op read) := by
  rw [settled, show (app.callback cb).addon.queued q = _ from app.addon.queued_callback cb q,
    lastWrite_append]
  cases he : cb.event? with
  | none => rfl
  | some e =>
      by_cases hq : e.queue = q
      · cases hwrite : op e with
        | none => simp [hq, hwrite, lastWrite, settled, Polled.callback]
        | some b => simp [hq, hwrite, lastWrite]
      · simp [hq, hop e hq, settled, Polled.callback]

/-- What is offered and what is to come, after `arrived`. -/
structure Polled.Follows (app : Polled σ) (arrived : List Callback) (q : Queue)
    (op : Event → Option β) (read : σ → β) : Prop where
  offers : app.Offers arrived
  settled : ∀ b, lastWrite op (arrived.filterMap Callback.event?) = some b →
    app.settled q op read = b

namespace Polled.Follows

variable {app : Polled σ} {arrived : List Callback}

theorem callback (hop : WrittenBy q op) (hfollows : app.Follows arrived q op read)
    (cb : Callback) : (app.callback cb).Follows (arrived ++ [cb]) q op read := by
  refine ⟨hfollows.offers.callback cb, fun b hb => ?_⟩
  rw [settled_callback hop]
  rw [lastWrite_filterMap, lastWrite_concat, ← lastWrite_filterMap] at hb
  cases hwrite : cb.event?.bind op with
  | none =>
      rw [hwrite, Option.none_or] at hb
      exact hfollows.settled b hb
  | some c =>
      rw [hwrite, Option.some_or] at hb
      exact Option.some.inj hb

theorem drained (h : FollowedAndPolled handle poll q op read)
    (hfollows : app.Follows arrived q op read) :
    (app.drained handle).Follows arrived q op read := by
  refine ⟨⟨hfollows.offers.lastBeat, hfollows.offers.tempoMaster, hfollows.offers.running⟩, ?_⟩
  intro b hb
  rw [settled_drained h]
  exact hfollows.settled b hb

end Polled.Follows

end Register

/-! ### The two clients -/

namespace BpmDisplay

def OfApp.shown (self : OfApp) : Float × Int × String :=
  (self.currentBpm, self.currentBeat, self.masterDeviceName)

end BpmDisplay

namespace Comprehensive

end Comprehensive

end DjLink
