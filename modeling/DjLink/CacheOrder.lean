import DjLink.Delivery
import DjLink.Receivers
import DjLink.Library.LastWrite

/-!
The caches against the events. `onBeat` stores a beat under one mutex and
queues it under another, and so does the status lambda; between the two the
main thread, the getters and the other receive threads may run.

When one thread runs all callbacks of a type, their critical sections run in
the order of arrival. A value is then stored before it is queued and queued
before it is handed over, so the three histories are prefixes of the history
of arrivals, each at least as long as the next. The caches are registers of the
first of them, and a register never holds less than what was handed over.
-/

namespace DjLink

open Transition LastWrite

/-! ### Histories -/

/-- The critical sections that an arrival brings. -/
def Record.sections : Record → List Section
  | .arrived cb => cb.sections
  | .ran _ => []
  | .handed _ => []

def Record.ran? : Record → Option Section
  | .ran sec => some sec
  | .arrived _ => none
  | .handed _ => none

/-- The event that an arrival is about. -/
def Record.arrived? : Record → Option Event
  | .arrived cb => cb.event?
  | .ran _ => none
  | .handed _ => none

def Event.beat? : Event → Option OfxBeatLinkBeat
  | .beat ofBeat => some ofBeat
  | _ => none

def Event.status? : Event → Option OfxBeatLinkCdjStatus
  | .deviceUpdate ofStatus => some ofStatus
  | _ => none

def Section.beat? : Section → Option OfxBeatLinkBeat
  | .storeBeat ofBeat => some ofBeat
  | _ => none

def Section.status? : Section → Option OfxBeatLinkCdjStatus
  | .storeStatus ofStatus => some ofStatus
  | _ => none

/-- The critical sections in the order in which they took their mutexes. -/
def ran (log : List Record) : List Section := log.filterMap Record.ran?

variable {β : Type}

/-- The values that arrived, in order. -/
def arrivals (read : Event → Option β) (log : List Record) : List β :=
  log.filterMap fun r => r.arrived?.bind read

/-- The values that were stored, in order. -/
def storings (stored : Section → Option β) (log : List Record) : List β :=
  (ran log).filterMap stored

/-- The values that were queued, in order. -/
def queuings (read : Event → Option β) (log : List Record) : List β :=
  (ran log).filterMap fun sec => sec.event?.bind read

/-- The values that were handed to the handlers, in order. -/
def deliveries (read : Event → Option β) (log : List Record) : List β :=
  log.filterMap fun r => r.handed?.bind read

/-- The values of the critical sections that the arrivals brought. -/
def brought (f : Section → Option β) (log : List Record) : List β :=
  log.flatMap fun r => r.sections.filterMap f

theorem brought_append (f : Section → Option β) (log more : List Record) :
    brought f (log ++ more) = brought f log ++ brought f more :=
  List.flatMap_append

theorem ran_append (log more : List Record) : ran (log ++ more) = ran log ++ ran more :=
  List.filterMap_append

/-- The callbacks of type `q` first store a value, as `stored` recognises it,
and then queue it, as `read` recognises it. -/
structure StoredFirst (q : Queue) (stored : Section → Option β) (read : Event → Option β) :
    Prop where
  stored_queue : ∀ sec b, stored sec = some b → sec.queue = q
  read_queue : ∀ event b, read event = some b → event.queue = q
  same : ∀ cb : Callback, cb.queue = q →
    cb.sections.filterMap stored = cb.sections.filterMap fun sec => sec.event?.bind read
  first : ∀ cb : Callback, cb.queue = q → ∀ todo, todo <:+ cb.sections →
    (todo.filterMap stored).length ≤ (todo.filterMap fun sec => sec.event?.bind read).length

theorem beats_storedFirst : StoredFirst .beat Section.beat? Event.beat? where
  stored_queue sec b h := by
    cases sec <;> first | rfl | cases h
  read_queue event b h := by
    cases event <;> first | rfl | cases h
  same cb hcb := by
    cases cb <;> first | rfl | cases hcb
  first cb hcb todo htodo := by
    cases cb with
    | onBeat beat =>
        simp only [Callback.sections, List.suffix_cons_iff, List.suffix_nil] at htodo
        rcases htodo with rfl | rfl | rfl
        · exact Nat.le_refl 1
        · exact Nat.zero_le 1
        · exact Nat.zero_le 0
    | _ => cases hcb

theorem statuses_storedFirst : StoredFirst .deviceUpdate Section.status? Event.status? where
  stored_queue sec b h := by
    cases sec <;> first | rfl | cases h
  read_queue event b h := by
    cases event <;> first | rfl | cases h
  same cb hcb := by
    cases cb with
    | deviceUpdate now update => cases update <;> rfl
    | _ => cases hcb
  first cb hcb todo htodo := by
    cases cb with
    | deviceUpdate now update =>
        cases update with
        | cdjStatus status =>
            simp only [Callback.sections, List.suffix_cons_iff, List.suffix_nil] at htodo
            rcases htodo with rfl | rfl | rfl
            · exact Nat.le_refl 1
            · exact Nat.zero_le 1
            · exact Nat.zero_le 0
        | other =>
            obtain rfl : todo = [] := List.suffix_nil.mp htodo
            exact Nat.le_refl _
    | _ => cases hcb

theorem Callback.filterMap_event? (cb : Callback) :
    cb.sections.filterMap Section.event? = cb.event?.toList := by
  cases cb with
  | onBeat beat => rfl
  | onDeviceFound device => rfl
  | onDeviceLost device => rfl
  | deviceUpdate now update => cases update <;> rfl
  | masterChanged now update => rcases update with _ | _ | _ <;> rfl

/-! ### Program order -/

variable {T : Type} [DecidableEq T] {threading : Threading T} {s t : System T} {l : Label T}

/-- The values that `f` selects arrived in the order in which their critical
sections ran, and those that have not run are of the callback in progress on
the thread `r`. -/
def System.InOrder (r : T) (f : Section → Option β) (s : System T) : Prop :=
  brought f s.log = (ran s.log).filterMap f ++ (s.todo r).filterMap f

section PerType

variable {component : T → Component} {runner : Queue → T} {q : Queue} {f : Section → Option β}

theorem filterMap_eq_nil_of_queue (hf : ∀ sec b, f sec = some b → sec.queue = q)
    {cb : Callback} (hcb : cb.queue ≠ q) : cb.sections.filterMap f = [] := by
  rw [List.filterMap_eq_nil_iff]
  intro sec hsec
  by_contra hne
  obtain ⟨b, hb⟩ := Option.ne_none_iff_exists'.mp hne
  exact hcb ((Callback.queue_of_mem_sections hsec).symm.trans (hf sec b hb))

theorem Step.inOrder (hf : ∀ sec b, f sec = some b → sec.queue = q)
    (h : Step (.perType component runner) s l t) (hs : s.InProgress (.perType component runner))
    (horder : s.InOrder (runner q) f) : t.InOrder (runner q) f := by
  unfold System.InOrder at horder ⊢
  cases h.effect with
  | arrival r cb hruns hidle htodo hlog haddon =>
      have hran : ran [.arrived cb] = [] := rfl
      have hbrought : brought f [.arrived cb] = cb.sections.filterMap f := List.append_nil _
      rw [hlog, htodo, brought_append, hbrought, ran_append, hran, List.append_nil, horder]
      by_cases hq : cb.queue = q
      · -- the callback is of the type: its thread was idle
        have hr : runner q = r := hq ▸ hruns.symm
        rw [hr, Function.update_self, hidle, List.filterMap_nil, List.append_nil]
      · rw [filterMap_eq_nil_of_queue hf hq, List.append_nil]
        by_cases heq : runner q = r
        · rw [heq, Function.update_self, hidle, filterMap_eq_nil_of_queue hf hq,
            List.filterMap_nil]
        · rw [Function.update_of_ne heq]
  | ran r sec rest hr hfree htodo hlog haddon =>
      have hran : ran [.ran sec] = [sec] := rfl
      have hbrought : brought f [.ran sec] = [] := rfl
      have hsec : runner sec.queue = r := by
        apply hs.runner_eq
        rw [hr]
        exact List.mem_cons_self
      rw [hlog, htodo, brought_append, hbrought, ran_append, hran, List.append_nil, horder,
        List.filterMap_append, List.append_assoc]
      congr 1
      by_cases heq : runner q = r
      · rw [heq, Function.update_self, hr, ← List.filterMap_append]
        rfl
      · -- a section of another thread is of another type
        have hnone : f sec = none := by
          by_contra hne
          obtain ⟨b, hb⟩ := Option.ne_none_iff_exists'.mp hne
          exact heq (hf sec b hb ▸ hsec)
        rw [Function.update_of_ne heq, List.filterMap_cons_none hnone]
        rfl
  | handed q' event hl hpop htodo hlog =>
      have hran : ran [.handed event] = [] := rfl
      have hbrought : brought f [.handed event] = [] := rfl
      rw [hlog, htodo, brought_append, hbrought, ran_append, hran, List.append_nil,
        List.append_nil]
      exact horder
  | op op htodo hlog haddon =>
      rw [hlog, htodo]
      exact horder
  | silent htodo hlog haddon =>
      rw [hlog, htodo]
      exact horder

/-- Program order: of a callback type that one thread runs, the critical
sections run in the order of the arrivals. -/
theorem inOrder_of_reaches (hf : ∀ sec b, f sec = some b → sec.queue = q)
    (h : Reaches (Step (.perType component runner)) {} s) : s.InOrder (runner q) f := by
  have hrun : s.InProgress (.perType component runner) ∧ s.InOrder (runner q) f := by
    refine h.invariant (I := fun s => s.InProgress (.perType component runner) ∧
      s.InOrder (runner q) f) ?_ ⟨fun _ => .inl rfl, rfl⟩
    rintro s l t ⟨hs, horder⟩ - hstep
    exact ⟨hstep.inProgress hs, hstep.inOrder hf hs horder⟩
  exact hrun.2

/-! ### The three histories -/

theorem brought_event (read : Event → Option β) (log : List Record) :
    brought (fun sec => sec.event?.bind read) log = arrivals read log := by
  rw [arrivals, List.filterMap_eq_flatMap_toList, brought]
  congr 1
  funext r
  cases r with
  | arrived cb =>
      rw [Record.sections, Record.arrived?, ← List.filterMap_filterMap, cb.filterMap_event?]
      cases cb.event? with
      | none => rfl
      | some event =>
          show [event].filterMap read = (read event).toList
          cases hread : read event <;> simp [hread]
  | ran sec => rfl
  | handed event => rfl

variable {stored : Section → Option β} {read : Event → Option β}

theorem StoredFirst.event_queue (hp : StoredFirst q stored read) (sec : Section) (b : β)
    (h : sec.event?.bind read = some b) : sec.queue = q := by
  cases sec with
  | push event => exact hp.read_queue event b h
  | storeBeat ofBeat => cases h
  | eraseBeat d => cases h
  | storeStatus ofStatus => cases h

theorem StoredFirst.brought_stored (hp : StoredFirst q stored read) (log : List Record) :
    brought stored log = arrivals read log := by
  rw [← brought_event, brought, brought]
  congr 1
  funext r
  cases r with
  | arrived cb =>
      show cb.sections.filterMap stored = cb.sections.filterMap _
      by_cases hcb : cb.queue = q
      · exact hp.same cb hcb
      · rw [filterMap_eq_nil_of_queue hp.stored_queue hcb,
          filterMap_eq_nil_of_queue hp.event_queue hcb]
  | ran sec => rfl
  | handed event => rfl

/-- What is stored is a first part of what arrived. -/
theorem StoredFirst.storings_prefix (hp : StoredFirst q stored read)
    (h : Reaches (Step (.perType component runner)) {} s) :
    storings stored s.log <+: arrivals read s.log := by
  have horder := inOrder_of_reaches hp.stored_queue h
  rw [System.InOrder, hp.brought_stored] at horder
  exact ⟨_, horder.symm⟩

/-- What is queued is a first part of what is stored. -/
theorem StoredFirst.queuings_prefix (hp : StoredFirst q stored read)
    (h : Reaches (Step (.perType component runner)) {} s) :
    queuings read s.log <+: storings stored s.log := by
  have hstored := inOrder_of_reaches hp.stored_queue h
  have hqueued := inOrder_of_reaches hp.event_queue h
  rw [System.InOrder, hp.brought_stored] at hstored
  rw [System.InOrder, brought_event] at hqueued
  have htodo : ((s.todo (runner q)).filterMap stored).length ≤
      ((s.todo (runner q)).filterMap fun sec => sec.event?.bind read).length := by
    obtain hnil | ⟨cb, hruns, hsuffix⟩ := inProgress_of_reaches h (runner q)
    · rw [hnil]
      exact Nat.le_refl 0
    · by_cases hcb : cb.queue = q
      · exact hp.first cb hcb _ hsuffix
      · -- a callback of another type on the same thread stores no value of this one
        have hnil := List.filterMap_eq_nil_iff.mp (filterMap_eq_nil_of_queue hp.stored_queue hcb)
        have htodo : (s.todo (runner q)).filterMap stored = [] :=
          List.filterMap_eq_nil_iff.mpr fun sec hsec => hnil sec (hsuffix.subset hsec)
        rw [htodo]
        exact Nat.zero_le _
  have hlength := congrArg List.length (hstored.symm.trans hqueued)
  rw [List.length_append, List.length_append] at hlength
  refine List.prefix_of_prefix_length_le ⟨_, hqueued.symm⟩ ⟨_, hstored.symm⟩ ?_
  show ((ran s.log).filterMap fun sec => sec.event?.bind read).length ≤
    ((ran s.log).filterMap stored).length
  omega

/-- What was handed over, and then what is in the queue, is what was queued. -/
theorem StoredFirst.deliveries_append (hp : StoredFirst q stored read)
    (h : Reaches (Step threading) {} s) :
    deliveries read s.log ++ (s.addon.queued q).filterMap read = queuings read s.log := by
  have hread (event : Option Event) : (event.filter fun e => e.queue = q).bind read =
      event.bind read := by
    cases event with
    | none => rfl
    | some event =>
        by_cases hq : event.queue = q
        · simp [Option.filter, hq]
        · have hnone : read event = none := by
            by_contra hne
            obtain ⟨b, hb⟩ := Option.ne_none_iff_exists'.mp hne
            exact hq (hp.read_queue event b hb)
          simp [Option.filter, hq, hnone]
  have hlaw := congrArg (List.filterMap read) (handed_append_queued h q)
  rw [List.filterMap_append, handed, pushed, List.filterMap_filterMap,
    List.filterMap_filterMap] at hlaw
  simp only [hread] at hlaw
  rw [deliveries, hlaw, queuings, ran, List.filterMap_filterMap]
  congr 1
  funext r
  cases r <;> rfl

/-- What is handed over is a first part of what is stored. -/
theorem StoredFirst.deliveries_prefix (hp : StoredFirst q stored read)
    (h : Reaches (Step (.perType component runner)) {} s) :
    deliveries read s.log <+: storings stored s.log := by
  have hqueued : deliveries read s.log <+: queuings read s.log :=
    ⟨_, hp.deliveries_append h⟩
  exact hqueued.trans (hp.queuings_prefix h)

/-- When nothing is in progress and nothing is queued, what was handed over is
what arrived. -/
theorem StoredFirst.deliveries_eq (hp : StoredFirst q stored read)
    (h : Reaches (Step (.perType component runner)) {} s) (hidle : s.todo (runner q) = [])
    (hempty : s.addon.queued q = []) : deliveries read s.log = arrivals read s.log := by
  have hqueued := inOrder_of_reaches hp.event_queue h
  have hdelivered := hp.deliveries_append h
  rw [System.InOrder, hidle, brought_event, List.filterMap_nil, List.append_nil] at hqueued
  rw [hempty, List.filterMap_nil, List.append_nil] at hdelivered
  exact hdelivered.trans hqueued.symm

end PerType

/-! ### The caches as registers -/

structure OfxBeatLink.SameCaches (one other : OfxBeatLink) : Prop where
  latestBeats : one.latestBeats = other.latestBeats
  lastBeat : one.lastBeat = other.lastBeat
  latestStatuses : one.latestStatuses = other.latestStatuses

theorem OfxBeatLink.SameCaches.refl (self : OfxBeatLink) : self.SameCaches self :=
  ⟨rfl, rfl, rfl⟩

theorem OfxBeatLink.SameCaches.trans {self other third : OfxBeatLink}
    (h₁ : self.SameCaches other) (h₂ : other.SameCaches third) : self.SameCaches third := by
  obtain ⟨hbeats, hlast, hstatuses⟩ := h₁
  obtain ⟨hbeats', hlast', hstatuses'⟩ := h₂
  exact ⟨hbeats.trans hbeats', hlast.trans hlast', hstatuses.trans hstatuses'⟩

/-- What a critical section leaves in the caches depends on the caches alone. -/
theorem OfxBeatLink.SameCaches.runSection {self other : OfxBeatLink} (h : self.SameCaches other)
    (sec : Section) : (self.runSection sec).SameCaches (other.runSection sec) := by
  obtain ⟨hbeats, hlast, hstatuses⟩ := h
  cases sec with
  | storeBeat ofBeat => exact ⟨by simp only [OfxBeatLink.runSection, hbeats], rfl, hstatuses⟩
  | eraseBeat d => exact ⟨by simp only [OfxBeatLink.runSection, hbeats], hlast, hstatuses⟩
  | storeStatus ofStatus =>
      exact ⟨hbeats, hlast, by simp only [OfxBeatLink.runSection, hstatuses]⟩
  | push event => cases event <;> exact ⟨hbeats, hlast, hstatuses⟩

theorem Op.effect_sameCaches (op : Op) (self : OfxBeatLink) :
    (op.effect self).SameCaches self := by
  cases op <;> exact ⟨rfl, rfl, rfl⟩

/-- What a critical section writes to the entry of `d` in `latestBeats_`. -/
def Section.beatEntry (d : Int) : Section → Option (Option OfxBeatLinkBeat)
  | .storeBeat ofBeat => if ofBeat.deviceNumber = d then some (some ofBeat) else none
  | .eraseBeat deviceNumber => if deviceNumber = d then some none else none
  | _ => none

/-- What a critical section writes to the entry of `d` in `latestStatuses_`. -/
def Section.statusEntry (d : Int) : Section → Option (Option OfxBeatLinkCdjStatus)
  | .storeStatus ofStatus => if ofStatus.deviceNumber = d then some (some ofStatus) else none
  | _ => none

/-- The caches are what the critical sections made of them, one after the
other. -/
theorem caches_of_reaches (h : Reaches (Step threading) {} s) :
    s.addon.SameCaches ((ran s.log).foldl OfxBeatLink.runSection {}) := by
  refine h.invariant (I := fun s : System T =>
    s.addon.SameCaches ((ran s.log).foldl OfxBeatLink.runSection {})) ?_ (.refl _)
  intro s l t hs _ hstep
  cases hstep.effect with
  | arrival r cb hruns hidle htodo hlog haddon =>
      have hran : ran [.arrived cb] = [] := rfl
      rw [hlog, haddon, ran_append, hran, List.append_nil]
      exact hs
  | ran r sec rest hr hfree htodo hlog haddon =>
      have hran : ran [.ran sec] = [sec] := rfl
      rw [hlog, haddon, ran_append, hran, List.foldl_concat]
      exact hs.runSection sec
  | handed q event hl hpop htodo hlog =>
      have hran : ran [.handed event] = [] := rfl
      obtain ⟨hbeats, hlast, hstatuses, -⟩ := OfxBeatLink.pop_frame hpop
      rw [hlog, ran_append, hran, List.append_nil]
      exact OfxBeatLink.SameCaches.trans ⟨hbeats, hlast, hstatuses⟩ hs
  | op op htodo hlog haddon =>
      rw [hlog, haddon]
      exact (op.effect_sameCaches s.addon).trans hs
  | silent htodo hlog haddon =>
      rw [hlog, haddon]
      exact hs

theorem latestBeats_of_reaches (h : Reaches (Step threading) {} s) (d : Int) :
    s.addon.latestBeats[d]? = (lastWrite (Section.beatEntry d) (ran s.log)).getD none := by
  rw [(caches_of_reaches h).latestBeats]
  have hregister := foldl_eq_lastWrite (fun self : OfxBeatLink => self.latestBeats[d]?)
    OfxBeatLink.runSection (Section.beatEntry d) ?_ {} (ran s.log)
  · simpa using hregister
  · intro self sec
    cases sec with
    | storeBeat ofBeat =>
        by_cases hd : ofBeat.deviceNumber = d <;>
          simp [OfxBeatLink.runSection, Section.beatEntry, hd]
    | eraseBeat deviceNumber =>
        by_cases hd : deviceNumber = d <;> simp [OfxBeatLink.runSection, Section.beatEntry, hd]
    | storeStatus ofStatus => rfl
    | push event => cases event <;> rfl

theorem lastBeat_of_reaches (h : Reaches (Step threading) {} s) :
    s.addon.lastBeat = (lastWrite Section.beat? (ran s.log)).getD {} := by
  rw [(caches_of_reaches h).lastBeat]
  apply foldl_eq_lastWrite OfxBeatLink.lastBeat OfxBeatLink.runSection Section.beat?
  intro self sec
  cases sec with
  | storeBeat ofBeat => rfl
  | eraseBeat deviceNumber => rfl
  | storeStatus ofStatus => rfl
  | push event => cases event <;> rfl

theorem latestStatuses_of_reaches (h : Reaches (Step threading) {} s) (d : Int) :
    s.addon.latestStatuses[d]? = (lastWrite (Section.statusEntry d) (ran s.log)).getD none := by
  rw [(caches_of_reaches h).latestStatuses]
  have hregister := foldl_eq_lastWrite (fun self : OfxBeatLink => self.latestStatuses[d]?)
    OfxBeatLink.runSection (Section.statusEntry d) ?_ {} (ran s.log)
  · simpa using hregister
  · intro self sec
    cases sec with
    | storeStatus ofStatus =>
        by_cases hd : ofStatus.deviceNumber = d <;>
          simp [OfxBeatLink.runSection, Section.statusEntry, hd]
    | storeBeat ofBeat => rfl
    | eraseBeat deviceNumber => rfl
    | push event => cases event <;> rfl

/-! ### Caches and deliveries -/

/-- Device `b.deviceNumber` was lost after `b`, the beat number `i`, was
stored. -/
def LostAfterStore (log : List Record) (i : ℕ) (b : OfxBeatLinkBeat) : Prop :=
  ∃ before after, ran log = before ++ .storeBeat b :: after ∧
    (before.filterMap Section.beat?).length = i ∧ .eraseBeat b.deviceNumber ∈ after

/-- What is handed over arrived at the same place of its sequence, and from
then on no getter returns anything that arrived before it. -/
structure System.NotBehind (s : System T) : Prop where
  beats_prefix : deliveries Event.beat? s.log <+: arrivals Event.beat? s.log
  statuses_prefix : deliveries Event.status? s.log <+: arrivals Event.status? s.log
  latestBeat : ∀ (i : ℕ) b, (deliveries Event.beat? s.log)[i]? = some b →
    (∃ j b', i ≤ j ∧ (arrivals Event.beat? s.log)[j]? = some b' ∧
      b'.deviceNumber = b.deviceNumber ∧ s.addon.getLatestBeat b.deviceNumber = b') ∨
    (s.addon.getLatestBeat b.deviceNumber = {} ∧ LostAfterStore s.log i b)
  latestBeatAny : ∀ (i : ℕ) b, (deliveries Event.beat? s.log)[i]? = some b →
    ∃ j, i ≤ j ∧ (arrivals Event.beat? s.log)[j]? = some s.addon.getLatestBeatAny
  statusFor : ∀ (i : ℕ) st, (deliveries Event.status? s.log)[i]? = some st →
    ∃ j st', i ≤ j ∧ (arrivals Event.status? s.log)[j]? = some st' ∧
      st'.deviceNumber = st.deviceNumber ∧ s.addon.getStatusFor st.deviceNumber = some st'

/-- The getters return what was handed over last. -/
structure System.UpToDate (s : System T) : Prop where
  latestBeat : ∀ pre b post, deliveries Event.beat? s.log = pre ++ b :: post →
    (∀ b' ∈ post, b'.deviceNumber ≠ b.deviceNumber) →
    s.addon.getLatestBeat b.deviceNumber = b ∨
      (s.addon.getLatestBeat b.deviceNumber = {} ∧ LostAfterStore s.log pre.length b)
  latestBeatAny : ∀ pre b, deliveries Event.beat? s.log = pre ++ [b] →
    s.addon.getLatestBeatAny = b
  statusFor : ∀ pre st post, deliveries Event.status? s.log = pre ++ st :: post →
    (∀ st' ∈ post, st'.deviceNumber ≠ st.deviceNumber) →
    s.addon.getStatusFor st.deviceNumber = some st

/-- No callback is in progress and no event is queued. -/
def System.Quiet (s : System T) : Prop :=
  (∀ r, (s.receivers r).Idle) ∧ ∀ q, s.addon.queued q = []

theorem Section.beat?_eq_some {sec : Section} {b : OfxBeatLinkBeat} (h : sec.beat? = some b) :
    sec = .storeBeat b := by
  cases sec with
  | storeBeat ofBeat => rw [Option.some.inj h]
  | eraseBeat d => cases h
  | storeStatus ofStatus => cases h
  | push event => cases h

theorem Section.status?_eq_some {sec : Section} {st : OfxBeatLinkCdjStatus}
    (h : sec.status? = some st) : sec = .storeStatus st := by
  cases sec with
  | storeStatus ofStatus => rw [Option.some.inj h]
  | storeBeat ofBeat => cases h
  | eraseBeat d => cases h
  | push event => cases h

variable {component : T → Component} {runner : Queue → T}

theorem latestBeat_notBehind (h : Reaches (Step (.perType component runner)) {} s) {i : ℕ}
    {b : OfxBeatLinkBeat} (hi : (deliveries Event.beat? s.log)[i]? = some b) :
    (∃ j b', i ≤ j ∧ (arrivals Event.beat? s.log)[j]? = some b' ∧
      b'.deviceNumber = b.deviceNumber ∧ s.addon.getLatestBeat b.deviceNumber = b') ∨
    (s.addon.getLatestBeat b.deviceNumber = {} ∧ LostAfterStore s.log i b) := by
  have hstored := getElem?_of_prefix (beats_storedFirst.deliveries_prefix h) hi
  have hwrites : ∀ sec : Section, sec.beat? = some b →
      sec.beatEntry b.deviceNumber ≠ none := by
    intro sec hsec
    rw [Section.beat?_eq_some hsec]
    simp [Section.beatEntry]
  obtain ⟨before, a, after, x, entry, hran, ha, hlen, hx, hentry, hlast, hnumber⟩ :=
    lastWrite_not_before hstored hwrites
  have hread : s.addon.latestBeats[b.deviceNumber]? = entry := by
    rw [latestBeats_of_reaches h, hlast, Option.getD_some]
  obtain rfl := Section.beat?_eq_some ha
  cases x with
  | storeBeat b' =>
      -- the entry was last written by a beat
      left
      obtain ⟨hd, rfl⟩ : b'.deviceNumber = b.deviceNumber ∧ some b' = entry := by
        simpa [Section.beatEntry] using hentry
      obtain ⟨j, hij, hj⟩ := hnumber b' rfl
      refine ⟨j, b', hij, getElem?_of_prefix (beats_storedFirst.storings_prefix h) hj, hd, ?_⟩
      rw [OfxBeatLink.getLatestBeat, hread]
  | eraseBeat d =>
      -- or by the loss of the device
      right
      obtain ⟨rfl, rfl⟩ : d = b.deviceNumber ∧ none = entry := by
        simpa [Section.beatEntry] using hentry
      refine ⟨?_, before, after, hran, hlen, ?_⟩
      · rw [OfxBeatLink.getLatestBeat, hread]
      · simpa using hx
  | storeStatus ofStatus => cases hentry
  | push event => cases hentry

theorem latestBeatAny_notBehind (h : Reaches (Step (.perType component runner)) {} s) {i : ℕ}
    {b : OfxBeatLinkBeat} (hi : (deliveries Event.beat? s.log)[i]? = some b) :
    ∃ j, i ≤ j ∧ (arrivals Event.beat? s.log)[j]? = some s.addon.getLatestBeatAny := by
  have hstored := getElem?_of_prefix (beats_storedFirst.deliveries_prefix h) hi
  have hwrites : ∀ sec : Section, sec.beat? = some b → sec.beat? ≠ none := by
    intro sec hsec
    simp [hsec]
  obtain ⟨-, -, -, x, b', -, -, -, -, hb', hlast, hnumber⟩ :=
    lastWrite_not_before hstored hwrites
  obtain ⟨j, hij, hj⟩ := hnumber b' hb'
  refine ⟨j, hij, ?_⟩
  rw [OfxBeatLink.getLatestBeatAny, lastBeat_of_reaches h, hlast, Option.getD_some]
  exact getElem?_of_prefix (beats_storedFirst.storings_prefix h) hj

theorem statusFor_notBehind (h : Reaches (Step (.perType component runner)) {} s) {i : ℕ}
    {st : OfxBeatLinkCdjStatus} (hi : (deliveries Event.status? s.log)[i]? = some st) :
    ∃ j st', i ≤ j ∧ (arrivals Event.status? s.log)[j]? = some st' ∧
      st'.deviceNumber = st.deviceNumber ∧
      s.addon.getStatusFor st.deviceNumber = some st' := by
  have hstored := getElem?_of_prefix (statuses_storedFirst.deliveries_prefix h) hi
  have hwrites : ∀ sec : Section, sec.status? = some st →
      sec.statusEntry st.deviceNumber ≠ none := by
    intro sec hsec
    rw [Section.status?_eq_some hsec]
    simp [Section.statusEntry]
  obtain ⟨-, -, -, x, entry, -, -, -, -, hentry, hlast, hnumber⟩ :=
    lastWrite_not_before hstored hwrites
  cases x with
  | storeStatus st' =>
      obtain ⟨hd, rfl⟩ : st'.deviceNumber = st.deviceNumber ∧ some st' = entry := by
        simpa [Section.statusEntry] using hentry
      obtain ⟨j, hij, hj⟩ := hnumber st' rfl
      refine ⟨j, st', hij, getElem?_of_prefix (statuses_storedFirst.storings_prefix h) hj, hd, ?_⟩
      rw [OfxBeatLink.getStatusFor, latestStatuses_of_reaches h, hlast, Option.getD_some]
  | storeBeat ofBeat => cases hentry
  | eraseBeat d => cases hentry
  | push event => cases hentry

theorem notBehind_of_reaches (h : Reaches (Step (.perType component runner)) {} s) :
    s.NotBehind where
  beats_prefix :=
    (beats_storedFirst.deliveries_prefix h).trans (beats_storedFirst.storings_prefix h)
  statuses_prefix :=
    (statuses_storedFirst.deliveries_prefix h).trans (statuses_storedFirst.storings_prefix h)
  latestBeat _ _ hi := latestBeat_notBehind h hi
  latestBeatAny _ _ hi := latestBeatAny_notBehind h hi
  statusFor _ _ hi := statusFor_notBehind h hi

/-- When nothing is on its way, what is not behind is up to date. -/
theorem upToDate_of_quiet (h : Reaches (Step (.perType component runner)) {} s)
    (hquiet : s.Quiet) : s.UpToDate := by
  have hnot := notBehind_of_reaches h
  have hbeats := beats_storedFirst.deliveries_eq h (hquiet.1 _).2 (hquiet.2 _)
  have hstatuses := statuses_storedFirst.deliveries_eq h (hquiet.1 _).2 (hquiet.2 _)
  have hplace {γ : Type} (pre post : List γ) (b : γ) : (pre ++ b :: post)[pre.length]? = some b := by
    simp
  refine ⟨fun pre b post hl hpost => ?_, fun pre b hl => ?_, fun pre st post hl hpost => ?_⟩
  · obtain ⟨j, b', hj, hb', hd, hget⟩ | hlost :=
      hnot.latestBeat pre.length b (by rw [hl]; exact hplace ..)
    · rw [← hbeats] at hb'
      left
      rw [hget]
      exact eq_of_last hl hpost hj hb' hd
    · exact .inr hlost
  · obtain ⟨j, hj, hb'⟩ := hnot.latestBeatAny pre.length b (by rw [hl]; exact hplace ..)
    rw [← hbeats] at hb'
    exact eq_of_last (p := fun _ => True) hl (fun x hx => by cases hx) hj hb' trivial
  · obtain ⟨j, st', hj, hst', hd, hget⟩ :=
      hnot.statusFor pre.length st (by rw [hl]; exact hplace ..)
    rw [← hstatuses] at hst'
    rw [hget]
    exact congrArg some (eq_of_last hl hpost hj hst' hd)

/-- **The caches never lag behind the events.** Each callback type is run by one
thread. In every reachable state, what was handed over is a first part of what
arrived, and for a beat `b` that was handed over `getLatestBeat` of its device
returns `b`, a later beat of the device, or the empty beat if the device was
lost after `b` was stored; `getLatestBeat()` returns `b` or a later beat; and
`getStatusFor` never returns a status older than one that was handed over. When
no callback is in progress and the queues are empty, the getters return what
was handed over last, but for a device lost in the meantime. -/
theorem caches_never_behind (component : T → Component) (runner : Queue → T) {s : System T}
    (h : Reaches (Step (.perType component runner)) {} s) :
    s.NotBehind ∧ (s.Quiet → s.UpToDate) :=
  ⟨notBehind_of_reaches h, upToDate_of_quiet h⟩

/-- One beat is handed over, and a second one and a status of the device are
still queued; then these are handed over as well, and the device is lost. -/
theorem caches_never_behind_after_loss :
    let arrives (place : Int) : Beatlink.Beat :=
      { (default : Beatlink.Beat) with deviceNumber := 1, beatWithinBar := place }
    let beat (place : Int) : OfxBeatLinkBeat := convertBeat (arrives place)
    let cdj : Beatlink.CdjStatus := { (default : Beatlink.CdjStatus) with deviceNumber := 1 }
    ∃ pending lost : System Component, Reaches (Step Threading.library) {} pending ∧
      Reaches (Step Threading.library) {} lost ∧
      deliveries Event.beat? pending.log = [beat 1] ∧ pending.NotBehind ∧
      pending.addon.getLatestBeat 1 = beat 2 ∧
      deliveries Event.beat? lost.log = [beat 1, beat 2] ∧ lost.NotBehind ∧ lost.UpToDate ∧
      lost.addon.getLatestBeat 1 = {} ∧ LostAfterStore lost.log 1 (beat 2) ∧
      lost.addon.getLatestBeatAny = beat 2 ∧
      lost.addon.getStatusFor 1 = some (convertCdjStatus 0 cdj) := by
  intro arrives beat cdj
  let before : List Input := [.callback (.onBeat (arrives 1)), .update,
    .callback (.onBeat (arrives 2)), .callback (.deviceUpdate 0 (.cdjStatus cdj))]
  let device : Beatlink.DeviceAnnouncement :=
    { (default : Beatlink.DeviceAnnouncement) with deviceNumber := 1 }
  let after : List Input := [.update, .callback (.onDeviceLost device), .update]
  let pending : System Component := before.foldl System.perform {}
  let lost : System Component := after.foldl System.perform pending
  have hperforms (inputs : List Input) :=
    performs_run Threading.library (fun cb => cb.queue.component) (fun _ => rfl) inputs
  have hpending : Reaches (Step Threading.library) {} pending := (hperforms before).1
  have hlost : Reaches (Step Threading.library) {} lost := (hperforms (before ++ after)).1
  obtain ⟨hnot, -⟩ := caches_never_behind id Queue.component hpending
  obtain ⟨hnot', hquiet⟩ := caches_never_behind id Queue.component hlost
  have hup : lost.UpToDate := hquiet ⟨fun r => ⟨rfl, rfl⟩, OfxBeatLink.queued_update _⟩
  have hstored : pending.addon.getLatestBeat 1 = beat 2 := rfl
  have hgone : lost.addon.getLatestBeat 1 = {} := rfl
  have hbeats : deliveries Event.beat? lost.log = [beat 1, beat 2] := rfl
  have hstatuses : deliveries Event.status? lost.log = [convertCdjStatus 0 cdj] := rfl
  have hlast := (hup.latestBeat [beat 1] (beat 2) [] hbeats (by simp)).resolve_left fun h => by
    have hnumber : (1 : Int) = 0 := congrArg OfxBeatLinkBeat.deviceNumber (h.symm.trans hgone)
    omega
  exact ⟨pending, lost, hpending, hlost, rfl, hnot, hstored, hbeats, hnot', hup, hgone, hlast.2,
    hup.latestBeatAny [beat 1] (beat 2) hbeats,
    hup.statusFor [] (convertCdjStatus 0 cdj) [] hstatuses (by simp)⟩

end DjLink
