import DjLink.Client
import DjLink.Library.LastWrite

/-!
Batched against immediate delivery. `update()` hands over a frame queue by
queue, so the order of arrival across queues is lost. For one device the
client's entry is decided by the last found or lost and by what follows it;
this module computes the entry for an arbitrary event sequence, compares the
batched sequence with the order of arrival, and ends in the exact condition
under which the two leave the client with the same map.
-/

namespace DjLink

open Beatlink LastWrite

namespace Event

/-- `e` is found or lost of device `d`. -/
def IsLifecycleOf (d : Int) : Event → Prop
  | .deviceFound device => device.deviceNumber = d
  | .deviceLost device => device.deviceNumber = d
  | _ => False

def IsLostOf (d : Int) : Event → Prop
  | .deviceLost device => device.deviceNumber = d
  | _ => False

def IsBeatOf (d : Int) : Event → Prop
  | .beat ofBeat => ofBeat.deviceNumber = d
  | _ => False

def IsStatusOf (d : Int) : Event → Prop
  | .deviceUpdate status => status.deviceNumber = d
  | _ => False

/-- What an event writes to the last beat in the entry of `d`. -/
def beatOp (d : Int) : Event → Option OfxBeatLinkBeat
  | .beat ofBeat => if ofBeat.deviceNumber = d then some ofBeat else none
  | _ => none

/-- What an event writes to the status in the entry of `d`. -/
def statusOp (d : Int) : Event → Option OfxBeatLinkCdjStatus
  | .deviceUpdate status => if status.deviceNumber = d then some status else none
  | _ => none

theorem beatOp_eq_none_iff (d : Int) (e : Event) : beatOp d e = none ↔ ¬ e.IsBeatOf d := by
  cases e <;> simp [beatOp, IsBeatOf]

theorem statusOp_eq_none_iff (d : Int) (e : Event) :
    statusOp d e = none ↔ ¬ e.IsStatusOf d := by
  cases e <;> simp [statusOp, IsStatusOf]

end Event

/-! ### The entry of one device -/

/-- What an event does to the client's entry of `d`. -/
def entryStep (d : Int) (entry : Option PlayerState) : Event → Option PlayerState
  | .beat beat =>
      if beat.deviceNumber = d then entry.map fun state => { state with lastBeat := some beat }
      else entry
  | .deviceFound device => if device.deviceNumber = d then some { info := device } else entry
  | .deviceLost device => if device.deviceNumber = d then none else entry
  | .deviceUpdate status =>
      if status.deviceNumber = d then entry.map fun state => { state with status := some status }
      else entry
  | .masterChanged _ => entry

theorem players_handle (client : OfApp) (d : Int) (e : Event) :
    (client.handle e).players[d]? = entryStep d client.players[d]? e := by
  cases e with
  | beat beat =>
      simp only [OfApp.handle, OfApp.onBeat, entryStep]
      by_cases hd : beat.deviceNumber = d
      · subst hd
        cases hentry : client.players[beat.deviceNumber]? with
        | none => simp [hentry]
        | some state => simp
      · cases client.players[beat.deviceNumber]? <;> simp [hd]
  | deviceFound device => simp [OfApp.handle, OfApp.onDeviceFound, entryStep]
  | deviceLost device =>
      simp only [OfApp.handle, OfApp.onDeviceLost, entryStep]
      split <;> simp
  | deviceUpdate status =>
      simp only [OfApp.handle, OfApp.onDeviceUpdate, entryStep]
      by_cases hd : status.deviceNumber = d
      · subst hd
        cases hentry : client.players[status.deviceNumber]? with
        | none => simp [hentry]
        | some state => simp
      · cases client.players[status.deviceNumber]? <;> simp [hd]
  | masterChanged status => rfl

theorem players_handleAll (client : OfApp) (d : Int) (events : List Event) :
    (client.handleAll events).players[d]? =
      events.foldl (entryStep d) client.players[d]? := by
  induction events generalizing client with
  | nil => rfl
  | cons e events ih =>
      rw [OfApp.handleAll, List.foldl_cons, List.foldl_cons, ← players_handle]
      exact ih (client.handle e)

/-- An entry brought up to date with the beats and statuses of `events`. -/
def PlayerState.refresh (d : Int) (events : List Event) (state : PlayerState) : PlayerState :=
  { state with
    lastBeat := (lastWrite (Event.beatOp d) events).or state.lastBeat
    status := (lastWrite (Event.statusOp d) events).or state.status }

/-- Without found or lost an entry is only refreshed, and an absent one stays
absent. -/
theorem foldl_entryStep_of_no_lifecycle {d : Int} {events : List Event}
    (h : ∀ e ∈ events, ¬ e.IsLifecycleOf d) (entry : Option PlayerState) :
    events.foldl (entryStep d) entry = entry.map (PlayerState.refresh d events) := by
  induction events using List.reverseRecOn with
  | nil => cases entry <;> rfl
  | append_singleton events e ih =>
      have he := h e (by simp)
      rw [List.foldl_concat, ih fun x hx => h x (by simp [hx])]
      cases entry with
      | none => cases e <;> simp_all [entryStep, Event.IsLifecycleOf]
      | some state =>
          cases e with
          | beat beat =>
              by_cases hd : beat.deviceNumber = d <;>
                simp [entryStep, PlayerState.refresh, Event.beatOp, Event.statusOp, hd]
          | deviceFound device =>
              have hd : ¬ device.deviceNumber = d := he
              simp [entryStep, PlayerState.refresh, Event.beatOp, Event.statusOp, hd]
          | deviceLost device =>
              have hd : ¬ device.deviceNumber = d := he
              simp [entryStep, PlayerState.refresh, Event.beatOp, Event.statusOp, hd]
          | deviceUpdate status =>
              by_cases hd : status.deviceNumber = d <;>
                simp [entryStep, PlayerState.refresh, Event.beatOp, Event.statusOp, hd]
          | masterChanged status =>
              simp [entryStep, PlayerState.refresh, Event.beatOp, Event.statusOp]

theorem foldl_entryStep_of_last_found {d : Int} (before : List Event) {after : List Event}
    {device : OfxBeatLinkDevice} (hd : device.deviceNumber = d)
    (h : ∀ e ∈ after, ¬ e.IsLifecycleOf d) (entry : Option PlayerState) :
    (before ++ .deviceFound device :: after).foldl (entryStep d) entry =
      some (PlayerState.refresh d after { info := device }) := by
  rw [List.foldl_append, List.foldl_cons, foldl_entryStep_of_no_lifecycle h]
  simp [entryStep, hd]

theorem foldl_entryStep_of_last_lost {d : Int} (before : List Event) {after : List Event}
    {device : OfxBeatLinkDevice} (hd : device.deviceNumber = d)
    (h : ∀ e ∈ after, ¬ e.IsLifecycleOf d) (entry : Option PlayerState) :
    (before ++ .deviceLost device :: after).foldl (entryStep d) entry = none := by
  rw [List.foldl_append, List.foldl_cons, foldl_entryStep_of_no_lifecycle h]
  simp [entryStep, hd]

/-! ### The batched order -/

theorem queue_of_mem_ofQueue {e : Event} {q : Queue} {frame : List Event}
    (h : e ∈ ofQueue q frame) : e.queue = q := by
  simpa using (List.mem_filter.mp h).2

/-- `op` is a register that only events of queue `q` write. -/
def WrittenBy {β : Type} (q : Queue) (op : Event → Option β) : Prop :=
  ∀ e, e.queue ≠ q → op e = none

theorem writtenBy_beatOp (d : Int) : WrittenBy .beat (Event.beatOp d) := by
  intro e h
  cases e <;> simp_all [Event.beatOp, Event.queue]

theorem writtenBy_statusOp (d : Int) : WrittenBy .deviceUpdate (Event.statusOp d) := by
  intro e h
  cases e <;> simp_all [Event.statusOp, Event.queue]

theorem WrittenBy.lastWrite_own {β : Type} {q : Queue} {op : Event → Option β}
    (hop : WrittenBy q op) (frame : List Event) :
    lastWrite op (ofQueue q frame) = lastWrite op frame :=
  lastWrite_filter fun e _ he => hop e (by simpa using he)

theorem WrittenBy.lastWrite_other {β : Type} {q r : Queue} {op : Event → Option β}
    (hop : WrittenBy q op) (hr : r ≠ q) (frame : List Event) :
    lastWrite op (ofQueue r frame) = none := by
  rw [lastWrite_eq_none_iff]
  intro e he
  exact hop e (queue_of_mem_ofQueue he ▸ hr)

/-- A register that one queue writes does not see the reordering across
queues. -/
theorem WrittenBy.lastWrite_batched {β : Type} {q : Queue} {op : Event → Option β}
    (hop : WrittenBy q op) (frame : List Event) :
    lastWrite op (batched frame) = lastWrite op frame := by
  simp only [batched, lastWrite_append]
  cases q <;> simp [hop.lastWrite_own, hop.lastWrite_other]

theorem WrittenBy.lastWrite_flatMap_batched {β : Type} {q : Queue} {op : Event → Option β}
    (hop : WrittenBy q op) (frames : List (List Event)) :
    lastWrite op (frames.flatMap batched) = lastWrite op frames.flatten := by
  induction frames with
  | nil => rfl
  | cons frame frames ih =>
      rw [List.flatMap_cons, List.flatten_cons, lastWrite_append, lastWrite_append, ih,
        hop.lastWrite_batched]

theorem mem_flatMap_batched {e : Event} {frames : List (List Event)} :
    e ∈ frames.flatMap batched ↔ e ∈ frames.flatten := by
  simp [List.mem_flatMap, List.mem_flatten, mem_batched]

/-! ### Frames with a found or a lost -/

/-- A loss in a frame empties the entry, wherever in the frame it stands: every
found of the frame is handed over before it. -/
theorem foldl_batched_of_lost {d : Int} {frame : List Event}
    (h : ∃ e ∈ frame, e.IsLostOf d) (entry : Option PlayerState) :
    (batched frame).foldl (entryStep d) entry = none := by
  have hlost : ∃ e ∈ ofQueue .deviceLost frame, e.IsLostOf d := by
    obtain ⟨e, he, hd⟩ := h
    refine ⟨e, List.mem_filter.mpr ⟨he, ?_⟩, hd⟩
    cases e <;> simp_all [Event.IsLostOf, Event.queue]
  obtain ⟨before, e, after, hsplit, hd, hafter⟩ := exists_last_split hlost
  cases e with
  | deviceLost device =>
      have hbatched : batched frame =
          (ofQueue .beat frame ++ ofQueue .deviceFound frame ++ before) ++
            .deviceLost device ::
              (after ++ ofQueue .deviceUpdate frame ++ ofQueue .masterChanged frame) := by
        simp [batched, hsplit]
      rw [hbatched]
      refine foldl_entryStep_of_last_lost _ hd (fun x hx => ?_) entry
      simp only [List.mem_append] at hx
      rcases hx with (hx | hx) | hx
      · have hmem : x ∈ ofQueue .deviceLost frame := by simp [hsplit, hx]
        have hqueue := queue_of_mem_ofQueue hmem
        have hnot := hafter x hx
        cases x <;> simp_all [Event.IsLifecycleOf, Event.IsLostOf, Event.queue]
      · have hqueue := queue_of_mem_ofQueue hx
        cases x <;> simp_all [Event.IsLifecycleOf, Event.queue]
      · have hqueue := queue_of_mem_ofQueue hx
        cases x <;> simp_all [Event.IsLifecycleOf, Event.queue]
  | beat ofBeat => exact hd.elim
  | deviceFound device => exact hd.elim
  | deviceUpdate status => exact hd.elim
  | masterChanged status => exact hd.elim

/-- Without a loss, the last found of a frame is followed, in batched order, by
all statuses of the frame and by no beat. -/
theorem batched_split_of_last_found {d : Int} {before after : List Event}
    (device : OfxBeatLinkDevice) (hlost : ∀ e ∈ before, ¬ e.IsLostOf d)
    (hafter : ∀ e ∈ after, ¬ e.IsLifecycleOf d) :
    ∃ pre post, batched (before ++ .deviceFound device :: after) =
        pre ++ .deviceFound device :: post ∧
      (∀ e ∈ post, ¬ e.IsLifecycleOf d) ∧
      lastWrite (Event.beatOp d) post = none ∧
      lastWrite (Event.statusOp d) post =
        (lastWrite (Event.statusOp d) after).or (lastWrite (Event.statusOp d) before) := by
  let frame := before ++ .deviceFound device :: after
  have hstatus : lastWrite (Event.statusOp d) (ofQueue .deviceUpdate frame) =
      (lastWrite (Event.statusOp d) after).or (lastWrite (Event.statusOp d) before) := by
    rw [(writtenBy_statusOp d).lastWrite_own, lastWrite_append, lastWrite_cons]
    simp [Event.statusOp]
  refine ⟨ofQueue .beat frame ++ ofQueue .deviceFound before,
    ofQueue .deviceFound after ++ ofQueue .deviceLost frame ++
      ofQueue .deviceUpdate frame ++ ofQueue .masterChanged frame, ?_, ?_, ?_, ?_⟩
  · simp [batched, frame, ofQueue, Event.queue]
  · intro e he
    simp only [List.mem_append] at he
    rcases he with ((he | he) | he) | he
    · exact hafter e (List.mem_of_mem_filter he)
    · have hqueue := queue_of_mem_ofQueue he
      have hmem := List.mem_of_mem_filter he
      simp only [frame, List.mem_append, List.mem_cons] at hmem
      rcases hmem with hmem | rfl | hmem
      · have hnot := hlost e hmem
        cases e <;> simp_all [Event.IsLifecycleOf, Event.IsLostOf, Event.queue]
      · simp [Event.queue] at hqueue
      · exact hafter e hmem
    · have hqueue := queue_of_mem_ofQueue he
      cases e <;> simp_all [Event.IsLifecycleOf, Event.queue]
    · have hqueue := queue_of_mem_ofQueue he
      cases e <;> simp_all [Event.IsLifecycleOf, Event.queue]
  · simp [lastWrite_append, (writtenBy_beatOp d).lastWrite_other]
  · simp [lastWrite_append, hstatus, (writtenBy_statusOp d).lastWrite_other]

/-! ### The whole run -/

/-- For every device whose last found or lost is a found: in the frame of that
found no loss of the device comes before it; a beat of the device after it in
the frame is followed by one in a later frame; and a status of the device
before it in the frame is followed by one after it. -/
def LastFoundInOrder (frames : List (List Event)) : Prop :=
  ∀ earlier before device after later,
    frames = earlier ++ (before ++ .deviceFound device :: after) :: later →
    (∀ e ∈ after ++ later.flatten, ¬ e.IsLifecycleOf device.deviceNumber) →
    (∀ e ∈ before, ¬ e.IsLostOf device.deviceNumber) ∧
      ((∃ e ∈ after, e.IsBeatOf device.deviceNumber) →
        ∃ e ∈ later.flatten, e.IsBeatOf device.deviceNumber) ∧
      ((∃ e ∈ before, e.IsStatusOf device.deviceNumber) →
        ∃ e ∈ after ++ later.flatten, e.IsStatusOf device.deviceNumber)

theorem or_left_eq_iff {α : Type} {x y : Option α} : x = x.or y ↔ (y ≠ none → x ≠ none) := by
  cases x <;> cases y <;> simp

theorem lastWrite_ne_none_iff_exists {β : Type} {op : Event → Option β} {p : Event → Prop}
    (hop : ∀ e, op e = none ↔ ¬ p e) (events : List Event) :
    lastWrite op events ≠ none ↔ ∃ e ∈ events, p e := by
  rw [ne_eq, lastWrite_eq_none_iff]
  simp [hop]

/-- Two refreshed entries of one device differ only in what refreshed them. -/
theorem refresh_eq_iff {d : Int} {events events' : List Event} {device : OfxBeatLinkDevice} :
    PlayerState.refresh d events { info := device } =
        PlayerState.refresh d events' { info := device } ↔
      lastWrite (Event.beatOp d) events = lastWrite (Event.beatOp d) events' ∧
        lastWrite (Event.statusOp d) events = lastWrite (Event.statusOp d) events' := by
  simp only [PlayerState.refresh, PlayerState.mk.injEq, Option.or_none, true_and]
  exact and_comm

/-- Where the last found or lost of `d` is a found, batched delivery leaves the
entry of immediate delivery exactly under the condition above. -/
theorem found_entry_eq_iff {d : Int} {earlier later : List (List Event)}
    {before after : List Event} {device : OfxBeatLinkDevice} (hd : device.deviceNumber = d)
    (hafter : ∀ e ∈ after ++ later.flatten, ¬ e.IsLifecycleOf d) (entry : Option PlayerState) :
    ((earlier ++ (before ++ .deviceFound device :: after) :: later).flatMap batched).foldl
        (entryStep d) entry =
      ((earlier ++ (before ++ .deviceFound device :: after) :: later).flatten).foldl
        (entryStep d) entry ↔
    (∀ e ∈ before, ¬ e.IsLostOf d) ∧
      ((∃ e ∈ after, e.IsBeatOf d) → ∃ e ∈ later.flatten, e.IsBeatOf d) ∧
      ((∃ e ∈ before, e.IsStatusOf d) → ∃ e ∈ after ++ later.flatten, e.IsStatusOf d) := by
  have hlater : ∀ e ∈ later.flatMap batched, ¬ e.IsLifecycleOf d := fun e he =>
    hafter e (List.mem_append_right _ (mem_flatMap_batched.mp he))
  have hdirect :
      ((earlier ++ (before ++ .deviceFound device :: after) :: later).flatten).foldl
        (entryStep d) entry =
      some (PlayerState.refresh d (after ++ later.flatten) { info := device }) := by
    rw [← foldl_entryStep_of_last_found (earlier.flatten ++ before) hd hafter entry]
    simp
  rw [hdirect]
  by_cases hlost : ∀ e ∈ before, ¬ e.IsLostOf d
  · obtain ⟨pre, post, hbatched, hpost, hbeat, hstatus⟩ := batched_split_of_last_found
      device hlost fun e he => hafter e (List.mem_append_left _ he)
    have hdelivered :
        ((earlier ++ (before ++ .deviceFound device :: after) :: later).flatMap batched).foldl
          (entryStep d) entry =
        some (PlayerState.refresh d (post ++ later.flatMap batched) { info := device }) := by
      rw [← foldl_entryStep_of_last_found (earlier.flatMap batched ++ pre) hd
        (fun e he => (List.mem_append.mp he).elim (hpost e) (hlater e)) entry]
      simp [hbatched]
    have hbeats :
        lastWrite (Event.beatOp d) (post ++ later.flatMap batched) =
            lastWrite (Event.beatOp d) (after ++ later.flatten) ↔
          ((∃ e ∈ after, e.IsBeatOf d) → ∃ e ∈ later.flatten, e.IsBeatOf d) := by
      rw [lastWrite_append, lastWrite_append, hbeat, Option.or_none,
        (writtenBy_beatOp d).lastWrite_flatMap_batched, or_left_eq_iff,
        lastWrite_ne_none_iff_exists (Event.beatOp_eq_none_iff d),
        lastWrite_ne_none_iff_exists (Event.beatOp_eq_none_iff d)]
    have hstatuses :
        lastWrite (Event.statusOp d) (post ++ later.flatMap batched) =
            lastWrite (Event.statusOp d) (after ++ later.flatten) ↔
          ((∃ e ∈ before, e.IsStatusOf d) → ∃ e ∈ after ++ later.flatten, e.IsStatusOf d) := by
      rw [lastWrite_append, hstatus, (writtenBy_statusOp d).lastWrite_flatMap_batched,
        ← Option.or_assoc, ← lastWrite_append, eq_comm, or_left_eq_iff,
        lastWrite_ne_none_iff_exists (Event.statusOp_eq_none_iff d),
        lastWrite_ne_none_iff_exists (Event.statusOp_eq_none_iff d)]
    rw [hdelivered, Option.some.injEq, refresh_eq_iff, hbeats, hstatuses]
    exact ⟨fun h => ⟨hlost, h⟩, fun h => h.2⟩
  · have hdelivered :
        ((earlier ++ (before ++ .deviceFound device :: after) :: later).flatMap batched).foldl
          (entryStep d) entry = none := by
      have hex : ∃ e ∈ before ++ .deviceFound device :: after, e.IsLostOf d := by
        obtain ⟨e, he, hlost⟩ : ∃ e ∈ before, e.IsLostOf d := by simpa using hlost
        exact ⟨e, by simp [he], hlost⟩
      rw [List.flatMap_append, List.flatMap_cons, List.foldl_append, List.foldl_append,
        foldl_batched_of_lost hex, foldl_entryStep_of_no_lifecycle hlater]
      rfl
    rw [hdelivered]
    exact iff_of_false (by simp) fun h => hlost h.1

/-- A device whose last found or lost is a lost is absent in either order. -/
theorem lost_entry_eq {d : Int} {earlier later : List (List Event)} {before after : List Event}
    {device : OfxBeatLinkDevice} (hd : device.deviceNumber = d)
    (hafter : ∀ e ∈ after ++ later.flatten, ¬ e.IsLifecycleOf d) (entry : Option PlayerState) :
    ((earlier ++ (before ++ .deviceLost device :: after) :: later).flatMap batched).foldl
        (entryStep d) entry =
      ((earlier ++ (before ++ .deviceLost device :: after) :: later).flatten).foldl
        (entryStep d) entry := by
  have hlater : ∀ e ∈ later.flatMap batched, ¬ e.IsLifecycleOf d := fun e he =>
    hafter e (List.mem_append_right _ (mem_flatMap_batched.mp he))
  have hdirect :
      ((earlier ++ (before ++ .deviceLost device :: after) :: later).flatten).foldl
        (entryStep d) entry = none := by
    rw [← foldl_entryStep_of_last_lost (earlier.flatten ++ before) hd hafter entry]
    simp
  have hex : ∃ e ∈ before ++ .deviceLost device :: after, e.IsLostOf d :=
    ⟨.deviceLost device, by simp, hd⟩
  rw [hdirect, List.flatMap_append, List.flatMap_cons, List.foldl_append, List.foldl_append,
    foldl_batched_of_lost hex, foldl_entryStep_of_no_lifecycle hlater]
  rfl

/-- Frames that mention the life of `d` split at its last found or lost. -/
theorem exists_last_lifecycle_split {d : Int} {frames : List (List Event)}
    (h : ∃ e ∈ frames.flatten, e.IsLifecycleOf d) :
    ∃ earlier before e after later, frames = earlier ++ (before ++ e :: after) :: later ∧
      e.IsLifecycleOf d ∧ ∀ x ∈ after ++ later.flatten, ¬ x.IsLifecycleOf d := by
  have hframe : ∃ frame ∈ frames, ∃ e ∈ frame, e.IsLifecycleOf d := by
    obtain ⟨e, he, hd⟩ := h
    obtain ⟨frame, hmem, he⟩ := List.mem_flatten.mp he
    exact ⟨frame, hmem, e, he, hd⟩
  obtain ⟨earlier, frame, later, rfl, hmention, hlater⟩ := exists_last_split hframe
  obtain ⟨before, e, after, rfl, hd, hafter⟩ := exists_last_split hmention
  refine ⟨earlier, before, e, after, later, rfl, hd, fun x hx => ?_⟩
  rcases List.mem_append.mp hx with hx | hx
  · exact hafter x hx
  · obtain ⟨frame, hmem, hx⟩ := List.mem_flatten.mp hx
    exact fun hlife => hlater frame hmem ⟨x, hx, hlife⟩

/-- Handing over frame by frame in batched order leaves a client with the map
of the order of arrival exactly when `LastFoundInOrder` holds. -/
theorem players_batched_eq_iff (client : OfApp) (frames : List (List Event)) :
    (client.handleAll (frames.flatMap batched)).players =
        (client.handleAll frames.flatten).players ↔
      LastFoundInOrder frames := by
  constructor
  · rintro heq earlier before device after later rfl hafter
    have hentry := congrArg (fun players => players[device.deviceNumber]?) heq
    simp only [players_handleAll] at hentry
    exact (found_entry_eq_iff rfl hafter _).mp hentry
  · intro horder
    refine Std.ExtTreeMap.ext_getElem? fun d => ?_
    rw [players_handleAll, players_handleAll]
    by_cases hlife : ∃ e ∈ frames.flatten, e.IsLifecycleOf d
    · obtain ⟨earlier, before, e, after, later, rfl, hd, hafter⟩ :=
        exists_last_lifecycle_split hlife
      cases e with
      | deviceFound device =>
          obtain rfl : device.deviceNumber = d := hd
          exact (found_entry_eq_iff rfl hafter _).mpr
            (horder earlier before device after later rfl hafter)
      | deviceLost device => exact lost_entry_eq hd hafter _
      | beat ofBeat => exact hd.elim
      | deviceUpdate status => exact hd.elim
      | masterChanged status => exact hd.elim
    · have hdirect : ∀ e ∈ frames.flatten, ¬ e.IsLifecycleOf d := by simpa using hlife
      have hbatched : ∀ e ∈ frames.flatMap batched, ¬ e.IsLifecycleOf d := fun e he =>
        hdirect e (mem_flatMap_batched.mp he)
      rw [foldl_entryStep_of_no_lifecycle hdirect, foldl_entryStep_of_no_lifecycle hbatched]
      congr 1
      funext state
      simp only [PlayerState.refresh, (writtenBy_beatOp d).lastWrite_flatMap_batched,
        (writtenBy_statusOp d).lastWrite_flatMap_batched]

/-- **Batched against immediate delivery.** For every sequence of callbacks
and `update()` calls that ends in an `update()`, the client's map is the one it
would hold had every callback been handed to it on arrival if and only if
`LastFoundInOrder` holds of the frames. -/
theorem batched_delivery_iff (inputs : List Input) :
    (Session.run {} (inputs ++ [.update])).client.players =
        (OfApp.handleAll {} (inputs.filterMap Input.arrival?)).players ↔
      LastFoundInOrder (frames (inputs ++ [.update])) := by
  have hqueues (q : Queue) : ({} : Session).addon.queued q = ofQueue q [] := by
    cases q <;> rfl
  have harrivals : (frames (inputs ++ [.update])).flatten = inputs.filterMap Input.arrival? := by
    rw [frames, flatten_framesFrom, List.nil_append]
  rw [client_run_eq {} [] hqueues, ← harrivals]
  exact players_batched_eq_iff {} (frames (inputs ++ [.update]))

/-- Device 1 is found; later, between two updates, it is lost and found again.
The client ends without it. -/
theorem lost_and_found_in_one_frame :
    let device : DeviceAnnouncement := { (default : DeviceAnnouncement) with deviceNumber := 1 }
    let inputs := [Input.callback (.onDeviceFound device), .update,
      .callback (.onDeviceLost device), .callback (.onDeviceFound device)]
    (Session.run {} (inputs ++ [.update])).client.players ≠
      (OfApp.handleAll {} (inputs.filterMap Input.arrival?)).players := by
  intro device inputs heq
  have hentry := congrArg (fun players => (players[(1 : Int)]?).isSome) heq
  have hbatched : ((Session.run {} (inputs ++ [.update])).client.players[(1 : Int)]?).isSome
      = false := rfl
  have hdirect : ((OfApp.handleAll {} (inputs.filterMap Input.arrival?)).players[(1 : Int)]?).isSome
      = true := rfl
  rw [hbatched, hdirect] at hentry
  exact Bool.false_ne_true hentry

end DjLink
