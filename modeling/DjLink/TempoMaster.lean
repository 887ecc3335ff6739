import DjLink.Client
import DjLink.Singletons
import DjLink.Library.LastWrite

/-!
The tempo master as the events tell it and as `getTempoMaster()` tells it.

The master listener turns an announcement into an event only when it carries a
`CdjStatus`: an announcement of no master, or of a master of another kind, has
no event, since `masterChangedEvent` could not carry it. A client that follows
the events therefore agrees with the getter whenever the getter names a master,
and otherwise may still hold the device of the last `CdjStatus` announcement.

The proof follows one quantity along the run: the master the client will hold
once the queues are drained (`Session.settled`).
-/

namespace DjLink

open Beatlink LastWrite

/-- A session and the singleton that its addon polls. -/
structure Station where
  session : Session
  virtualCdj : VirtualCdj

namespace Station

/-- The library's own state follows its announcements: `getTempoMaster()` of
`VirtualCdj` returns the last one. -/
def step (self : Station) (input : Input) : Station where
  session := self.session.step input
  virtualCdj :=
    match input with
    | .callback (.masterChanged _ update) => { self.virtualCdj with tempoMaster := update }
    | _ => self.virtualCdj

def initial : Station where
  session := { addon := { virtualCdjRunning := true } }
  virtualCdj := { running := true }

def run (inputs : List Input) : Station := inputs.foldl step initial

def getTempoMaster (self : Station) (now : Nat) : Option OfxBeatLinkCdjStatus :=
  self.session.addon.getTempoMaster self.virtualCdj now

end Station

/-! ### Announcements -/

def announcementOp : Input → Option (Option DeviceUpdate)
  | .callback (.masterChanged _ update) => some update
  | _ => none

def cdjMasterOp (input : Input) : Option CdjStatus :=
  (announcementOp input).bind fun update => update.bind DeviceUpdate.asCdjStatus

def Input.IsLossOf (d : Int) : Input → Prop
  | .callback (.onDeviceLost device) => device.deviceNumber = d
  | _ => False

/-- The library has announced a change for every loss of the master: no device
that it announced as master has been lost without a further announcement. -/
def LossesAnnounced (inputs : List Input) : Prop :=
  ∀ before input status after, inputs = before ++ input :: after →
    cdjMasterOp input = some status → (∀ x ∈ after, announcementOp x = none) →
    ∀ x ∈ after, ¬ x.IsLossOf status.deviceNumber

theorem tempoMaster_run (inputs : List Input) :
    (Station.run inputs).virtualCdj.tempoMaster =
      (lastWrite announcementOp inputs).getD none := by
  refine foldl_eq_lastWrite (fun self : Station => self.virtualCdj.tempoMaster)
    Station.step announcementOp (fun self input => ?_) Station.initial inputs
  cases input with
  | update => rfl
  | callback cb => cases cb <;> rfl

theorem virtualCdjRunning_run (inputs : List Input) :
    (Station.run inputs).session.addon.virtualCdjRunning = true := by
  induction inputs using List.reverseRecOn with
  | nil => rfl
  | append_singleton inputs input ih =>
      rw [Station.run, List.foldl_concat]
      cases input with
      | update => exact ih
      | callback cb => exact (OfxBeatLink.callback_frame _ cb).2.1.trans ih

/-- While `VirtualCdj` runs, `getTempoMaster()` is the conversion of the last
announcement, where that is a `CdjStatus`. -/
theorem getTempoMaster_run (inputs : List Input) (now : Nat) :
    (Station.run inputs).getTempoMaster now =
      (((lastWrite announcementOp inputs).getD none).bind DeviceUpdate.asCdjStatus).map
        (convertCdjStatus now) := by
  simp only [Station.getTempoMaster, OfxBeatLink.getTempoMaster, virtualCdjRunning_run,
    tempoMaster_run]
  rcases (lastWrite announcementOp inputs).getD none with _ | _ | _ <;> rfl

/-! ### The client's master -/

def masterStep (master : Option Int) : Event → Option Int
  | .deviceLost device => if master = some device.deviceNumber then none else master
  | .masterChanged status => some status.deviceNumber
  | _ => master

theorem currentMaster_handle (client : OfApp) (e : Event) :
    (client.handle e).currentMaster = masterStep client.currentMaster e := by
  cases e with
  | beat beat =>
      simp only [OfApp.handle, OfApp.onBeat, masterStep]
      split <;> rfl
  | deviceFound device => rfl
  | deviceLost device =>
      simp only [OfApp.handle, OfApp.onDeviceLost, masterStep]
      split <;> rfl
  | deviceUpdate status =>
      simp only [OfApp.handle, OfApp.onDeviceUpdate, masterStep]
      split <;> rfl
  | masterChanged status => rfl

theorem currentMaster_handleAll (client : OfApp) (events : List Event) :
    (client.handleAll events).currentMaster = events.foldl masterStep client.currentMaster := by
  induction events generalizing client with
  | nil => rfl
  | cons e events ih =>
      rw [OfApp.handleAll, List.foldl_cons, List.foldl_cons, ← currentMaster_handle]
      exact ih (client.handle e)

theorem foldl_masterStep_of_silent {events : List Event}
    (h : ∀ e ∈ events, ∀ m, masterStep m e = m) (master : Option Int) :
    events.foldl masterStep master = master := by
  induction events with
  | nil => rfl
  | cons e events ih =>
      rw [List.foldl_cons, h e List.mem_cons_self]
      exact ih fun x hx => h x (List.mem_cons_of_mem e hx)

/-- The master that the client will hold after the next `update()`. -/
def Session.settled (self : Session) : Option Int := (self.step .update).client.currentMaster

/-- Of the five drains only the last but two and the last touch the master. -/
theorem settled_eq (self : Session) :
    self.settled =
      (self.addon.queued .masterChanged).foldl masterStep
        ((self.addon.queued .deviceLost).foldl masterStep self.client.currentMaster) := by
  have hsilent (q : Queue) (hlost : q ≠ .deviceLost) (hmaster : q ≠ .masterChanged)
      (m : Option Int) : (self.addon.queued q).foldl masterStep m = m := by
    refine foldl_masterStep_of_silent (fun e he m => ?_) m
    cases q <;> simp_all [OfxBeatLink.queued] <;> obtain ⟨_, _, rfl⟩ := he <;> rfl
  rw [Session.settled, Session.step, currentMaster_handleAll, OfxBeatLink.update_handed]
  simp [List.foldl_append, hsilent .beat, hsilent .deviceFound, hsilent .deviceUpdate]

theorem settled_update (self : Session) : (self.step .update).settled = self.settled := by
  rw [settled_eq (self.step .update)]
  have hempty (q : Queue) : (self.step .update).addon.queued q = [] :=
    OfxBeatLink.queued_update self.addon q
  rw [hempty, hempty]
  rfl

/-- A master event that is still queued hides what happens to the lost queue,
which is drained before it. -/
theorem foldl_masterStep_masterQueue (self : OfxBeatLink) (m : Option Int) :
    (self.queued .masterChanged).foldl masterStep m =
      match self.masterChangedQueue.getLast? with
      | some status => some status.deviceNumber
      | none => m := by
  rw [OfxBeatLink.queued]
  induction self.masterChangedQueue using List.reverseRecOn with
  | nil => rfl
  | append_singleton queue status ih => simp [masterStep]

theorem settled_callback (self : Session) (cb : Callback) :
    (self.step (.callback cb)).settled =
      match cb.event? with
      | some (.masterChanged status) => some status.deviceNumber
      | some (.deviceLost device) =>
          if self.addon.masterChangedQueue = [] then
            masterStep self.settled (.deviceLost device)
          else self.settled
      | _ => self.settled := by
  have hclient : (self.step (.callback cb)).client = self.client := rfl
  have hqueued (q : Queue) := OfxBeatLink.queued_callback self.addon cb q
  rw [settled_eq (self.step (.callback cb)), settled_eq self, hclient]
  simp only [Session.step, hqueued, List.foldl_append]
  cases hevent : cb.event? with
  | none => simp
  | some e =>
      cases e with
      | beat beat => simp [Event.queue]
      | deviceFound device => simp [Event.queue]
      | deviceUpdate status => simp [Event.queue]
      | masterChanged status => simp [Event.queue, masterStep]
      | deviceLost device =>
          simp only [Event.queue, Option.toList_some, List.filter_cons, decide_true, if_true,
            List.filter_nil, List.foldl_cons, List.foldl_nil, foldl_masterStep_masterQueue]
          cases hqueue : self.addon.masterChangedQueue using List.reverseRecOn with
          | nil => simp
          | append_singleton queue status => simp

/-! ### Along a run -/

theorem cdjMasterOp_callback (cb : Callback) (status : OfxBeatLinkCdjStatus)
    (h : cb.event? = some (.masterChanged status)) :
    ∃ cdj, cdjMasterOp (.callback cb) = some cdj ∧ cdj.deviceNumber = status.deviceNumber := by
  cases cb with
  | masterChanged now update =>
      rcases update with _ | cdj | _
      · simp [Callback.event?] at h
      · obtain rfl : convertCdjStatus now cdj = status := by
          simpa [Callback.event?, DeviceUpdate.asCdjStatus] using h
        exact ⟨cdj, rfl, rfl⟩
      · simp [Callback.event?, DeviceUpdate.asCdjStatus] at h
  | onBeat beat => simp [Callback.event?] at h
  | onDeviceFound device => simp [Callback.event?] at h
  | onDeviceLost device => simp [Callback.event?] at h
  | deviceUpdate now update => cases update <;> simp [Callback.event?, DeviceUpdate.asCdjStatus] at h

theorem event?_of_cdjMasterOp {input : Input} {status : CdjStatus}
    (h : cdjMasterOp input = some status) :
    ∃ cb st, input = .callback cb ∧ cb.event? = some (.masterChanged st) ∧
      st.deviceNumber = status.deviceNumber := by
  cases input with
  | update => simp [cdjMasterOp, announcementOp] at h
  | callback cb =>
      cases cb with
      | masterChanged now update =>
          rcases update with _ | cdj | _
          · simp [cdjMasterOp, announcementOp] at h
          · obtain rfl : cdj = status := by
              simpa [cdjMasterOp, announcementOp, DeviceUpdate.asCdjStatus] using h
            exact ⟨_, convertCdjStatus now cdj, rfl, rfl, rfl⟩
          · simp [cdjMasterOp, announcementOp, DeviceUpdate.asCdjStatus] at h
      | onBeat beat => simp [cdjMasterOp, announcementOp] at h
      | onDeviceFound device => simp [cdjMasterOp, announcementOp] at h
      | onDeviceLost device => simp [cdjMasterOp, announcementOp] at h
      | deviceUpdate now update => simp [cdjMasterOp, announcementOp] at h

theorem event?_of_loss {cb : Callback} {device : OfxBeatLinkDevice}
    (h : cb.event? = some (.deviceLost device)) :
    (Input.callback cb).IsLossOf device.deviceNumber := by
  cases cb with
  | onDeviceLost announcement =>
      obtain rfl : convertDevice announcement = device := by simpa [Callback.event?] using h
      rfl
  | onBeat beat => simp [Callback.event?] at h
  | onDeviceFound announcement => simp [Callback.event?] at h
  | deviceUpdate now update => cases update <;> simp [Callback.event?, DeviceUpdate.asCdjStatus] at h
  | masterChanged now update =>
      rcases update with _ | _ | _ <;> simp [Callback.event?, DeviceUpdate.asCdjStatus] at h

/-- What one input does to the settled master: a `CdjStatus` announcement sets
it, and otherwise it stays or is cleared by the loss of its device. -/
theorem settled_step (self : Session) (input : Input) :
    (∃ status, cdjMasterOp input = some status ∧
      (self.step input).settled = some status.deviceNumber) ∨
    (cdjMasterOp input = none ∧ (self.step input).settled = self.settled) ∨
    (cdjMasterOp input = none ∧ (self.step input).settled = none ∧
      ∃ n, self.settled = some n ∧ input.IsLossOf n) := by
  cases hop : cdjMasterOp input with
  | some status =>
      obtain ⟨cb, st, rfl, hevent, hst⟩ := event?_of_cdjMasterOp hop
      left
      exact ⟨status, rfl, by rw [settled_callback, hevent, ← hst]⟩
  | none =>
      right
      cases input with
      | update => exact .inl ⟨rfl, settled_update self⟩
      | callback cb =>
          rw [settled_callback]
          cases hevent : cb.event? with
          | none => exact .inl ⟨rfl, rfl⟩
          | some e =>
              cases e with
              | masterChanged st =>
                  obtain ⟨cdj, hcdj, -⟩ := cdjMasterOp_callback cb st hevent
                  rw [hop] at hcdj
                  cases hcdj
              | deviceLost device =>
                  by_cases hhit : self.addon.masterChangedQueue = [] ∧
                      self.settled = some device.deviceNumber
                  · refine .inr ⟨rfl, ?_, device.deviceNumber, hhit.2, event?_of_loss hevent⟩
                    simp [hhit.1, hhit.2, masterStep]
                  · refine .inl ⟨rfl, ?_⟩
                    by_cases hqueue : self.addon.masterChangedQueue = []
                    · have hne : self.settled ≠ some device.deviceNumber :=
                        fun h => hhit ⟨hqueue, h⟩
                      simp [hqueue, hne, masterStep]
                    · simp [hqueue]
              | beat beat => exact .inl ⟨rfl, rfl⟩
              | deviceFound device => exact .inl ⟨rfl, rfl⟩
              | deviceUpdate status => exact .inl ⟨rfl, rfl⟩

theorem settled_run (inputs : List Input) (n : Int)
    (h : (Station.run inputs).session.settled = some n) :
    ∃ status, lastWrite cdjMasterOp inputs = some status ∧ status.deviceNumber = n := by
  induction inputs using List.reverseRecOn with
  | nil => cases h
  | append_singleton inputs input ih =>
      have hstep : (Station.run (inputs ++ [input])).session =
          (Station.run inputs).session.step input := by
        rw [Station.run, List.foldl_concat]
        rfl
      rw [hstep] at h
      rw [lastWrite_concat]
      rcases settled_step (Station.run inputs).session input with
        ⟨status, hop, hset⟩ | ⟨hop, hset⟩ | ⟨hop, hset, -⟩
      · rw [hset] at h
        exact ⟨status, by rw [hop]; rfl, Option.some.inj h⟩
      · rw [hset] at h
        rw [hop]
        exact ih h
      · rw [hset] at h
        cases h

/-- A settled master stays while no `CdjStatus` is announced and its device is
not lost. -/
theorem settled_stays {inputs : List Input} {n : Int}
    (hcdj : ∀ x ∈ inputs, cdjMasterOp x = none) (hloss : ∀ x ∈ inputs, ¬ x.IsLossOf n)
    (self : Session) (h : self.settled = some n) : (self.run inputs).settled = some n := by
  induction inputs generalizing self with
  | nil => exact h
  | cons input inputs ih =>
      refine ih (fun x hx => hcdj x (List.mem_cons_of_mem _ hx))
        (fun x hx => hloss x (List.mem_cons_of_mem _ hx)) (self.step input) ?_
      rcases settled_step self input with ⟨_, hop, _⟩ | ⟨_, hset⟩ | ⟨_, _, m, hm, hlost⟩
      · rw [hcdj input List.mem_cons_self] at hop
        cases hop
      · rw [hset, h]
      · obtain rfl : n = m := Option.some.inj (h.symm.trans hm)
        exact absurd hlost (hloss input List.mem_cons_self)

theorem settled_stays_none {inputs : List Input} (hcdj : ∀ x ∈ inputs, cdjMasterOp x = none)
    (self : Session) (h : self.settled = none) : (self.run inputs).settled = none := by
  induction inputs generalizing self with
  | nil => exact h
  | cons input inputs ih =>
      refine ih (fun x hx => hcdj x (List.mem_cons_of_mem _ hx)) (self.step input) ?_
      rcases settled_step self input with ⟨_, hop, _⟩ | ⟨_, hset⟩ | ⟨_, hset, _⟩
      · rw [hcdj input List.mem_cons_self] at hop
        cases hop
      · rw [hset, h]
      · exact hset

theorem masterChangedQueue_step {self : Session} {input : Input}
    (hcdj : cdjMasterOp input = none) (h : self.addon.masterChangedQueue = []) :
    (self.step input).addon.masterChangedQueue = [] := by
  cases input with
  | update => simp [Session.step, OfxBeatLink.update, OfxBeatLink.drain_eq]
  | callback cb =>
      cases cb with
      | masterChanged now update =>
          rcases update with _ | cdj | _
          · exact h
          · simp [cdjMasterOp, announcementOp, DeviceUpdate.asCdjStatus] at hcdj
          · exact h
      | deviceUpdate now update => cases update <;> exact h
      | onBeat beat => exact h
      | onDeviceFound device => exact h
      | onDeviceLost device => exact h

/-- Once its event has been handed over, the loss of the master's device
clears the settled master. -/
theorem settled_none_of_loss {inputs : List Input} {n : Int}
    (hcdj : ∀ x ∈ inputs, cdjMasterOp x = none) (hloss : ∃ x ∈ inputs, x.IsLossOf n)
    (self : Session) (hqueue : self.addon.masterChangedQueue = [])
    (h : ∀ m, self.settled = some m → m = n) : (self.run inputs).settled = none := by
  induction inputs generalizing self with
  | nil =>
      obtain ⟨x, hx, -⟩ := hloss
      cases hx
  | cons input inputs ih =>
      have hrest : ∀ x ∈ inputs, cdjMasterOp x = none :=
        fun x hx => hcdj x (List.mem_cons_of_mem _ hx)
      by_cases hlost : input.IsLossOf n
      · refine settled_stays_none hrest (self.step input) ?_
        cases input with
        | update => exact hlost.elim
        | callback cb =>
            cases cb with
            | onDeviceLost device =>
                obtain rfl : device.deviceNumber = n := hlost
                rw [settled_callback]
                cases hset : self.settled with
                | none => simp [Callback.event?, hqueue, masterStep]
                | some m => simp [Callback.event?, hqueue, masterStep, h m hset]
            | onBeat beat => exact hlost.elim
            | onDeviceFound device => exact hlost.elim
            | deviceUpdate now update => exact hlost.elim
            | masterChanged now update => exact hlost.elim
      · refine ih hrest ?_ (self.step input)
          (masterChangedQueue_step (hcdj input List.mem_cons_self) hqueue) fun m hm => ?_
        · obtain ⟨x, hx, hxn⟩ := hloss
          rcases List.mem_cons.mp hx with rfl | hx
          · exact absurd hxn hlost
          · exact ⟨x, hx, hxn⟩
        · rcases settled_step self input with ⟨_, hop, _⟩ | ⟨_, hset⟩ | ⟨_, hset, _⟩
          · rw [hcdj input List.mem_cons_self] at hop
            cases hop
          · exact h m (hset.symm.trans hm)
          · rw [hset] at hm
            cases hm

theorem session_run_append (inputs more : List Input) :
    (Station.run (inputs ++ more)).session = (Station.run inputs).session.run more := by
  induction more using List.reverseRecOn with
  | nil => simp [Session.run]
  | append_singleton more input ih =>
      rw [← List.append_assoc, Station.run, List.foldl_concat, Session.run, List.foldl_concat]
      exact congrArg (fun self => Session.step self input) ih

theorem currentMaster_run_update (inputs : List Input) :
    (Station.run (inputs ++ [.update])).session.client.currentMaster =
      (Station.run inputs).session.settled := by
  rw [session_run_append]
  rfl

theorem getTempoMaster_run_update (inputs : List Input) (now : Nat) :
    (Station.run (inputs ++ [.update])).getTempoMaster now =
      (Station.run inputs).getTempoMaster now := by
  rw [getTempoMaster_run, getTempoMaster_run, lastWrite_concat]
  rfl

/-! ### Events against polling -/

theorem settled_of_announcement (self : Session) {input : Input} {cdj : CdjStatus}
    (h : cdjMasterOp input = some cdj) : (self.step input).settled = some cdj.deviceNumber := by
  rcases settled_step self input with ⟨status, hop, hset⟩ | ⟨hop, -⟩ | ⟨hop, -⟩
  · obtain rfl : cdj = status := Option.some.inj (h.symm.trans hop)
    exact hset
  · rw [h] at hop
    cases hop
  · rw [h] at hop
    cases hop

/-- What the getter names is settled: the last announcement is a `CdjStatus`,
and nothing has touched it since. -/
theorem settled_of_getTempoMaster {inputs : List Input} (hlosses : LossesAnnounced inputs)
    {now : Nat} {status : OfxBeatLinkCdjStatus}
    (h : (Station.run inputs).getTempoMaster now = some status) :
    (Station.run inputs).session.settled = some status.deviceNumber := by
  rw [getTempoMaster_run, Option.map_eq_some_iff] at h
  cases hreg : lastWrite announcementOp inputs with
  | none => simp [hreg] at h
  | some update =>
      rw [hreg, Option.getD_some] at h
      obtain ⟨cdj, hcdj, rfl⟩ := h
      obtain ⟨before, input, after, rfl, hop, hafter⟩ := lastWrite_eq_some_iff.mp hreg
      have hinput : cdjMasterOp input = some cdj := by simp [cdjMasterOp, hop, hcdj]
      have hquiet : ∀ x ∈ after, cdjMasterOp x = none := by
        intro x hx
        simp [cdjMasterOp, hafter x hx]
      rw [← List.singleton_append, ← List.append_assoc, session_run_append]
      apply settled_stays hquiet (hlosses before input cdj after rfl hinput hafter)
      rw [session_run_append]
      exact settled_of_announcement _ hinput

/-- A settled master that the getter does not name was announced, and then no
master or one of another kind. -/
theorem announcement_of_settled {inputs : List Input} {now : Nat} {n : Int}
    (hn : (Station.run inputs).session.settled = some n)
    (hnone : (Station.run inputs).getTempoMaster now = none) :
    ∃ before input status after, inputs = before ++ input :: after ∧
      cdjMasterOp input = some status ∧ status.deviceNumber = n ∧
      (∀ x ∈ after, cdjMasterOp x = none) ∧ ∃ x ∈ after, announcementOp x ≠ none := by
  obtain ⟨status, hreg, rfl⟩ := settled_run inputs n hn
  obtain ⟨before, input, after, rfl, hop, hafter⟩ := lastWrite_eq_some_iff.mp hreg
  refine ⟨before, input, status, after, rfl, hop, rfl, hafter, ?_⟩
  by_contra hsilent
  have hsilent : lastWrite announcementOp after = none := by
    rw [lastWrite_eq_none_iff]
    intro x hx
    by_contra hne
    exact hsilent ⟨x, hx, hne⟩
  obtain ⟨update, hann, hupdate⟩ : ∃ update, announcementOp input = some update ∧
      update.bind DeviceUpdate.asCdjStatus = some status := by
    simpa [cdjMasterOp, Option.bind_eq_some_iff] using hop
  rw [getTempoMaster_run, lastWrite_append, lastWrite_cons, hsilent, hann] at hnone
  simp [hupdate] at hnone

theorem settled_none_of_late_loss {before mid after : List Input} {input : Input}
    {status : CdjStatus} (hop : cdjMasterOp input = some status)
    (hquiet : ∀ x ∈ mid ++ after, cdjMasterOp x = none)
    (hloss : ∃ x ∈ after, x.IsLossOf status.deviceNumber) :
    (Station.run (before ++ input :: (mid ++ .update :: after))).session.settled = none := by
  have hsplit : before ++ input :: (mid ++ .update :: after) =
      before ++ input :: mid ++ [.update] ++ after := by simp
  rw [hsplit, session_run_append]
  apply settled_none_of_loss (fun x hx => hquiet x (List.mem_append_right _ hx)) hloss
  · -- the announcement has been handed over
    rw [session_run_append]
    simp [Session.run, Session.step, OfxBeatLink.update, OfxBeatLink.drain_eq]
  · intro m hm
    obtain ⟨status', hreg, rfl⟩ := settled_run _ m hm
    have hmid : lastWrite cdjMasterOp mid = none :=
      lastWrite_eq_none_iff.mpr fun x hx => hquiet x (List.mem_append_left _ hx)
    have hupdate : cdjMasterOp .update = none := rfl
    rw [lastWrite_concat, lastWrite_append, lastWrite_cons, hmid, hop, hupdate, Option.none_or,
      Option.none_or, Option.some_or] at hreg
    rw [Option.some.inj hreg]

/-- **The tempo master by events and by polling.** After any inputs that end in
an `update()`, with the losses of masters announced: whenever `getTempoMaster()`
names a master, the client holds the same device. A client that holds a device
when the getter names none holds the device of the last `CdjStatus`
announcement, and since then no master or one of another kind was announced. It
holds none once that device is lost after an `update()` that followed the
announcement. -/
theorem tempo_master_events_agree (inputs : List Input) (hlosses : LossesAnnounced inputs) :
    let station := Station.run (inputs ++ [.update])
    let master := station.session.client.currentMaster
    (∀ now status, station.getTempoMaster now = some status →
      master = some status.deviceNumber) ∧
    (∀ now n, master = some n → station.getTempoMaster now = none →
      ∃ before input status after, inputs = before ++ input :: after ∧
        cdjMasterOp input = some status ∧ status.deviceNumber = n ∧
        (∀ x ∈ after, cdjMasterOp x = none) ∧ ∃ x ∈ after, announcementOp x ≠ none) ∧
    (∀ before input status mid after, inputs = before ++ input :: (mid ++ .update :: after) →
      cdjMasterOp input = some status → (∀ x ∈ mid ++ after, cdjMasterOp x = none) →
      (∃ x ∈ after, x.IsLossOf status.deviceNumber) → master = none) := by
  intro station master
  have hmaster : master = (Station.run inputs).session.settled := currentMaster_run_update inputs
  refine ⟨fun now status hstatus => ?_, fun now n hn hnone => ?_, ?_⟩
  · rw [hmaster]
    apply settled_of_getTempoMaster hlosses
    rw [← getTempoMaster_run_update]
    exact hstatus
  · rw [hmaster] at hn
    apply announcement_of_settled hn
    rw [← getTempoMaster_run_update]
    exact hnone
  · rintro before input status mid after rfl hop hquiet hloss
    rw [hmaster]
    exact settled_none_of_late_loss hop hquiet hloss

/-- An announcement at the end is one for every loss before it. -/
theorem lossesAnnounced_concat (inputs : List Input) {input : Input}
    (h : announcementOp input ≠ none) : LossesAnnounced (inputs ++ [input]) := by
  intro before announced status after heq _ hsilent x hx
  have hmem : input ∈ after := by
    have hlast := congrArg List.getLast? heq
    rw [List.getLast?_concat, List.getLast?_append_of_ne_nil _ (List.cons_ne_nil _ _),
      List.getLast?_cons, List.getLast?_eq_some_getLast (List.ne_nil_of_mem hx)] at hlast
    rw [Option.some.inj hlast]
    exact List.getLast_mem _
  exact absurd (hsilent input hmem) h

/-- Device 1 is announced as master and then lost, which the library announces
too; devices 2 and 3 are masters after it, and a mixer after device 3. -/
theorem tempo_master_events_agree_after_loss :
    let cdj (n : Int) : CdjStatus := { (default : CdjStatus) with deviceNumber := n }
    let announced (update : Option DeviceUpdate) : Input := .callback (.masterChanged 0 update)
    let lost : Input :=
      .callback (.onDeviceLost { (default : DeviceAnnouncement) with deviceNumber := 1 })
    let loss := [announced (some (.cdjStatus (cdj 1))), .update, lost, announced none]
    let second := loss ++ [announced (some (.cdjStatus (cdj 2)))]
    let mixer := second ++ [announced (some (.cdjStatus (cdj 3))), announced (some .other)]
    LossesAnnounced loss ∧ LossesAnnounced second ∧ LossesAnnounced mixer ∧
      (Station.run (loss ++ [.update])).session.client.currentMaster = none ∧
      (Station.run (second ++ [.update])).session.client.currentMaster = some 2 ∧
      (Station.run (mixer ++ [.update])).session.client.currentMaster = some 3 ∧
      ∃ before input status after, mixer = before ++ input :: after ∧
        cdjMasterOp input = some status ∧ status.deviceNumber = 3 ∧
        (∀ x ∈ after, cdjMasterOp x = none) ∧ ∃ x ∈ after, announcementOp x ≠ none := by
  intro cdj announced lost loss second mixer
  have hnone (update : Option DeviceUpdate) : announcementOp (announced update) ≠ none :=
    Option.some_ne_none _
  have hloss : LossesAnnounced loss :=
    lossesAnnounced_concat [announced (some (.cdjStatus (cdj 1))), .update, lost] (hnone none)
  have hsecond : LossesAnnounced second := lossesAnnounced_concat loss (hnone _)
  have hmixer : LossesAnnounced mixer :=
    lossesAnnounced_concat (second ++ [announced (some (.cdjStatus (cdj 3)))])
      (hnone (some .other))
  obtain ⟨-, -, hgone⟩ := tempo_master_events_agree loss hloss
  obtain ⟨hagrees, -⟩ := tempo_master_events_agree second hsecond
  obtain ⟨-, hkept, -⟩ := tempo_master_events_agree mixer hmixer
  refine ⟨hloss, hsecond, hmixer, ?_, hagrees 0 (convertCdjStatus 0 (cdj 2)) rfl, rfl,
    hkept 0 3 rfl rfl⟩
  refine hgone [] _ (cdj 1) [] [lost, announced none] rfl rfl ?_ ⟨lost, by simp, rfl⟩
  intro x hx
  obtain rfl | rfl : x = lost ∨ x = announced none := by simpa using hx
  · rfl
  · rfl

/-- Device 1 is announced as master, and after an `update()` no master is
announced: the client keeps device 1, `getTempoMaster()` returns nothing. -/
theorem tempo_master_kept_without_master :
    let cdj : CdjStatus := { (default : CdjStatus) with deviceNumber := 1 }
    let inputs := [Input.callback (.masterChanged 0 (some (.cdjStatus cdj))), .update,
      .callback (.masterChanged 0 none)]
    let station := Station.run (inputs ++ [.update])
    LossesAnnounced inputs ∧ station.session.client.currentMaster = some 1 ∧
      station.getTempoMaster 0 = none ∧
      ¬ (station.session.client.currentMaster.isSome ↔ (station.getTempoMaster 0).isSome) := by
  intro cdj inputs station
  have hmaster : station.session.client.currentMaster = some 1 := rfl
  have hget : station.getTempoMaster 0 = none := rfl
  refine ⟨lossesAnnounced_concat [_, _] (Option.some_ne_none _), hmaster, hget, ?_⟩
  rw [hmaster, hget]
  simp

end DjLink
