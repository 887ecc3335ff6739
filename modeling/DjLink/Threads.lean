import Mathlib.Logic.Function.Basic
import DjLink.Singletons
import DjLink.Library.Locks
import DjLink.Library.Transition

/-!
The program as a system of threads: the main thread, which calls the public
methods and runs the handlers from inside `update()`, and the receive threads
of the library, which run the callbacks. A step is one critical section of a
callback, one iteration of a drain loop, one wait or one return; the threads
interleave at that grain.

What a critical section does is attributed to the moment at which it takes its
mutex; nobody else can look at what the mutex protects before it is released.
`update()` keeps the mutex of a queue while the handlers of its events run.

Of the library the model takes only that the `stop()` of a component returns
when no callback of its receive thread is in progress. The log records what
arrived, which critical sections ran and what was handed to the handlers.
-/

namespace DjLink

open Beatlink

/-- The parts of the library that have a receive thread and a `stop()`. -/
inductive Component where
  | beatFinder | deviceFinder | virtualCdj
  deriving DecidableEq

/-- The mutexes of the caches, the only ones that a getter takes. -/
inductive Cache where
  | latestBeats | latestStatuses
  deriving DecidableEq

def Cache.mutex : Cache → Mutex
  | .latestBeats => .latestBeats
  | .latestStatuses => .latestStatuses

theorem Cache.mutex_ne (c : Cache) (q : Queue) : c.mutex ≠ q.mutex := by
  cases c <;> cases q <;> decide

/-- The receive threads: the component that each belongs to, and the callbacks
that it may run. -/
structure Threading (T : Type) where
  component : T → Component
  runs : T → Callback → Prop

/-- A receive thread: the mutex of the critical section that it is in, and the
critical sections that its callback has still to go through. -/
structure Receiver where
  holding : Option Mutex := none
  todo : List Section := []

def Receiver.Idle (r : Receiver) : Prop := r.holding = none ∧ r.todo = []

/-! ### The main thread -/

/-- The public methods, with the outcomes of the library calls that they make. -/
inductive PublicCall where
  | isRunning | getCurrentDevices
  | isVirtualCdjRunning | getVirtualCdjDeviceNumber | getTempoMaster | getMasterTempo
  | getLatestBeat (deviceNumber : Int) | getLatestBeatAny
  | getCurrentStatuses | getStatusFor (deviceNumber : Int)
  | start (deviceStarted beatStarted : Bool) | stop
  | startVirtualCdj (started : Bool) | stopVirtualCdj
  | update

/-- What a method does between its call and its return, other than locking: it
waits for a component to stop, or sets a flag. -/
inductive Op where
  | join (c : Component)
  | setRunning (value : Bool)
  | setVirtualCdjRunning (value : Bool)

inductive Activity where
  /-- In the program's own code, at the top or in the innermost handler. -/
  | user
  | lock (q : Queue)
  /-- In `update()`, at the head of the loop that drains `q`. -/
  | loop (q : Queue)
  | enterGetter (c : Cache)
  | inGetter (c : Cache)
  | run (op : Op) (rest : List Op)

def Activity.ofOps : List Op → Activity
  | [] => .user
  | op :: rest => .run op rest

/-- The main thread, with the queues whose handlers are running, innermost
first. -/
structure Main where
  activity : Activity := .user
  handlers : List Queue := []

def Queue.next : Queue → Option Queue
  | .beat => some .deviceFound
  | .deviceFound => some .deviceLost
  | .deviceLost => some .deviceUpdate
  | .deviceUpdate => some .masterChanged
  | .masterChanged => none

def Activity.afterLoop (q : Queue) : Activity :=
  match q.next with
  | some r => .lock r
  | none => .user

def startOps (self : OfxBeatLink) (deviceStarted beatStarted : Bool) : List Op :=
  if self.running then []
  else if !deviceStarted then []
  else if !beatStarted then [.join .deviceFinder]
  else [.setRunning true]

def stopOps (self : OfxBeatLink) : List Op :=
  if !self.running then []
  else [.join .beatFinder, .join .deviceFinder, .setRunning false]

def startVirtualCdjOps (self : OfxBeatLink) (started : Bool) : List Op :=
  if self.virtualCdjRunning then []
  else if !started then []
  else [.setVirtualCdjRunning true]

def stopVirtualCdjOps (self : OfxBeatLink) : List Op :=
  if !self.virtualCdjRunning then []
  else [.join .virtualCdj, .setVirtualCdjRunning false]

def PublicCall.activity (self : OfxBeatLink) : PublicCall → Activity
  | .isRunning | .getCurrentDevices => .user
  | .isVirtualCdjRunning | .getVirtualCdjDeviceNumber | .getTempoMaster | .getMasterTempo => .user
  | .getLatestBeat _ | .getLatestBeatAny => .enterGetter .latestBeats
  | .getCurrentStatuses | .getStatusFor _ => .enterGetter .latestStatuses
  | .start deviceStarted beatStarted => .ofOps (startOps self deviceStarted beatStarted)
  | .stop => .ofOps (stopOps self)
  | .startVirtualCdj started => .ofOps (startVirtualCdjOps self started)
  | .stopVirtualCdj => .ofOps (stopVirtualCdjOps self)
  | .update => .lock .beat

def Op.effect (self : OfxBeatLink) : Op → OfxBeatLink
  | .join _ => self
  | .setRunning value => { self with running := value }
  | .setVirtualCdjRunning value => { self with virtualCdjRunning := value }

/-! ### The system -/

inductive Thread (T : Type) where
  | main
  | receiver (t : T)
  deriving DecidableEq

inductive Record where
  /-- The library entered a callback. -/
  | arrived (cb : Callback)
  /-- A critical section took its mutex. -/
  | ran (sec : Section)
  /-- `ofNotifyEvent` was called with an event. -/
  | handed (event : Event)

def Record.handed? : Record → Option Event
  | .handed event => some event
  | .arrived _ => none
  | .ran _ => none

def Record.pushed? : Record → Option Event
  | .ran sec => sec.event?
  | .arrived _ => none
  | .handed _ => none

structure System (T : Type) where
  addon : OfxBeatLink := {}
  receivers : T → Receiver := fun _ => {}
  main : Main := {}
  owner : Mutex → Option (Thread T) := fun _ => none
  log : List Record := []

/-- Who moves, and which method the program calls. -/
inductive Label (T : Type) where
  | receiver (t : T)
  | call (c : PublicCall)
  | main
  | handlerReturns
  | handlerThrows

def Op.Ready {T : Type} (threading : Threading T) (receivers : T → Receiver) : Op → Prop
  | .join c => ∀ t, threading.component t = c → (receivers t).Idle
  | .setRunning _ => True
  | .setVirtualCdjRunning _ => True

inductive Step {T : Type} [DecidableEq T] (threading : Threading T) :
    System T → Label T → System T → Prop
  /-- The library enters a callback. -/
  | enter (s : System T) (t : T) (cb : Callback) (hruns : threading.runs t cb)
      (hidle : (s.receivers t).Idle) :
      Step threading s (.receiver t)
        { s with
          receivers := Function.update s.receivers t { todo := cb.sections }
          log := s.log ++ [.arrived cb] }
  /-- A callback takes the mutex of its next critical section. -/
  | acquire (s : System T) (t : T) (sec : Section) (rest : List Section)
      (hreceiver : s.receivers t = { todo := sec :: rest }) (hfree : s.owner sec.mutex = none) :
      Step threading s (.receiver t)
        { s with
          addon := s.addon.runSection sec
          receivers := Function.update s.receivers t { holding := some sec.mutex, todo := rest }
          owner := Function.update s.owner sec.mutex (some (.receiver t))
          log := s.log ++ [.ran sec] }
  | release (s : System T) (t : T) (m : Mutex) (rest : List Section)
      (hreceiver : s.receivers t = { holding := some m, todo := rest }) :
      Step threading s (.receiver t)
        { s with
          receivers := Function.update s.receivers t { todo := rest }
          owner := Function.update s.owner m none }
  | call (s : System T) (c : PublicCall) (huser : s.main.activity = .user) :
      Step threading s (.call c)
        { s with main := { s.main with activity := c.activity s.addon } }
  | lock (s : System T) (q : Queue) (hmain : s.main.activity = .lock q)
      (hfree : s.owner q.mutex = none) :
      Step threading s .main
        { s with
          main := { s.main with activity := .loop q }
          owner := Function.update s.owner q.mutex (some .main) }
  /-- `update()` pops an event and hands it to the handlers. -/
  | notify (s : System T) (q : Queue) (event : Event) (addon : OfxBeatLink)
      (hmain : s.main.activity = .loop q) (hpop : s.addon.pop q = some (event, addon)) :
      Step threading s .main
        { s with
          addon := addon
          main := { activity := .user, handlers := q :: s.main.handlers }
          log := s.log ++ [.handed event] }
  | unlock (s : System T) (q : Queue) (hmain : s.main.activity = .loop q)
      (hempty : s.addon.pop q = none) :
      Step threading s .main
        { s with
          main := { s.main with activity := .afterLoop q }
          owner := Function.update s.owner q.mutex none }
  | enterGetter (s : System T) (c : Cache) (hmain : s.main.activity = .enterGetter c)
      (hfree : s.owner c.mutex = none) :
      Step threading s .main
        { s with
          main := { s.main with activity := .inGetter c }
          owner := Function.update s.owner c.mutex (some .main) }
  | leaveGetter (s : System T) (c : Cache) (hmain : s.main.activity = .inGetter c) :
      Step threading s .main
        { s with
          main := { s.main with activity := .user }
          owner := Function.update s.owner c.mutex none }
  | op (s : System T) (op : Op) (rest : List Op) (hmain : s.main.activity = .run op rest)
      (hready : op.Ready threading s.receivers) :
      Step threading s .main
        { s with
          addon := op.effect s.addon
          main := { s.main with activity := .ofOps rest } }
  | handlerReturns (s : System T) (q : Queue) (hs : List Queue)
      (huser : s.main.activity = .user) (hhandlers : s.main.handlers = q :: hs) :
      Step threading s .handlerReturns
        { s with main := { activity := .loop q, handlers := hs } }
  /-- A handler throws: the exception leaves `update()`, whose lock is undone,
  and arrives in the code that called `update()`. -/
  | handlerThrows (s : System T) (q : Queue) (hs : List Queue)
      (huser : s.main.activity = .user) (hhandlers : s.main.handlers = q :: hs) :
      Step threading s .handlerThrows
        { s with
          main := { activity := .user, handlers := hs }
          owner := Function.update s.owner q.mutex none }

/-! ### Who holds what -/

/-- The mutexes that the main thread holds where it is, not counting those of
the drains whose handlers are running. -/
def Activity.held : Activity → List Mutex
  | .loop q => [q.mutex]
  | .inGetter c => [c.mutex]
  | .user => []
  | .lock _ => []
  | .enterGetter _ => []
  | .run _ _ => []

def Main.held (main : Main) : List Mutex :=
  main.activity.held ++ main.handlers.map Queue.mutex

@[simp] theorem Activity.held_user : Activity.user.held = [] := rfl

@[simp] theorem Activity.held_lock (q : Queue) : (Activity.lock q).held = [] := rfl

@[simp] theorem Activity.held_loop (q : Queue) : (Activity.loop q).held = [q.mutex] := rfl

@[simp] theorem Activity.held_enterGetter (c : Cache) : (Activity.enterGetter c).held = [] := rfl

@[simp] theorem Activity.held_inGetter (c : Cache) :
    (Activity.inGetter c).held = [c.mutex] := rfl

@[simp] theorem Activity.held_run (op : Op) (rest : List Op) :
    (Activity.run op rest).held = [] := rfl

@[simp] theorem Activity.held_ofOps (ops : List Op) : (Activity.ofOps ops).held = [] := by
  cases ops <;> rfl

@[simp] theorem Activity.held_afterLoop (q : Queue) : (Activity.afterLoop q).held = [] := by
  cases q <;> rfl

@[simp] theorem PublicCall.held_activity (c : PublicCall) (self : OfxBeatLink) :
    (c.activity self).held = [] := by
  cases c <;> simp [PublicCall.activity]

variable {T : Type}

def System.Holds (s : System T) : Thread T → Mutex → Prop
  | .main, m => m ∈ s.main.held
  | .receiver t, m => (s.receivers t).holding = some m

/-- The owners of the mutexes are the threads that hold them, and the main
thread holds none twice. -/
structure System.Exclusive (s : System T) : Prop where
  consistent : Locks.Consistent s.Holds s.owner
  nodup : s.main.held.Nodup

theorem System.exclusive_initial : ({} : System T).Exclusive where
  consistent x m := by
    cases x <;> simp [System.Holds, Main.held, Activity.held]
  nodup := List.nodup_nil

namespace System.Exclusive

variable {s : System T} {main : Main} {m : Mutex}

theorem main_keeps (hs : s.Exclusive) (hheld : main.held = s.main.held) (addon : OfxBeatLink)
    (log : List Record) :
    ({ s with addon := addon, main := main, log := log } : System T).Exclusive := by
  refine ⟨hs.consistent.congr ?_, by rw [hheld]; exact hs.nodup⟩
  rintro (_ | t) n
  · simp [Holds, hheld]
  · rfl

theorem main_takes (hs : s.Exclusive) (hfree : s.owner m = none)
    (hheld : main.held = m :: s.main.held) :
    ({ s with
      main := main
      owner := Function.update s.owner m (some .main) } : System T).Exclusive := by
  have hnot : ¬ s.Holds .main m := hs.consistent.not_holds_of_free hfree
  refine ⟨hs.consistent.take hfree ?_, ?_⟩
  · rintro (_ | t) n
    · simp [Holds, hheld, or_comm]
    · simp [Holds]
  · rw [hheld]
    exact List.nodup_cons.mpr ⟨hnot, hs.nodup⟩

theorem main_gives (hs : s.Exclusive) (hheld : s.main.held = m :: main.held) :
    ({ s with
      main := main
      owner := Function.update s.owner m none } : System T).Exclusive := by
  have hnodup := hs.nodup
  rw [hheld, List.nodup_cons] at hnodup
  have hown : s.Holds .main m := by simp [Holds, hheld]
  refine ⟨hs.consistent.give hown ?_, hnodup.2⟩
  rintro (_ | t) n
  · simp only [Holds, hheld, List.mem_cons, true_and]
    constructor
    · intro hn
      exact ⟨.inr hn, fun heq => hnodup.1 (heq ▸ hn)⟩
    · rintro ⟨rfl | hn, hne⟩
      · exact absurd rfl hne
      · exact hn
  · simp [Holds]

end System.Exclusive

variable [DecidableEq T]

/-- Every step keeps the books: what a thread takes was free, and what it
gives back was its own. -/
theorem Step.exclusive {threading : Threading T} {s s' : System T} {l : Label T}
    (h : Step threading s l s') (hs : s.Exclusive) : s'.Exclusive := by
  cases h with
  | enter t cb hruns hidle =>
      refine ⟨hs.consistent.congr ?_, hs.nodup⟩
      rintro (_ | t') m
      · rfl
      · by_cases heq : t' = t
        · subst heq
          simp [System.Holds, hidle.1]
        · simp [System.Holds, heq]
  | acquire t sec rest hreceiver hfree =>
      refine ⟨hs.consistent.take hfree ?_, hs.nodup⟩
      rintro (_ | t') m
      · simp [System.Holds]
      · by_cases heq : t' = t
        · subst heq
          simp [System.Holds, hreceiver, eq_comm]
        · simp [System.Holds, heq]
  | release t m rest hreceiver =>
      have hown : s.Holds (.receiver t) m := by simp [System.Holds, hreceiver]
      refine ⟨hs.consistent.give hown ?_, hs.nodup⟩
      rintro (_ | t') n
      · simp [System.Holds]
      · by_cases heq : t' = t
        · subst heq
          simp [System.Holds, hreceiver, eq_comm]
        · simp [System.Holds, heq]
  | call c huser => exact hs.main_keeps (by simp [Main.held, huser]) _ _
  | lock q hmain hfree => exact hs.main_takes hfree (by simp [Main.held, hmain])
  | notify q event addon hmain hpop => exact hs.main_keeps (by simp [Main.held, hmain]) _ _
  | unlock q hmain hempty => exact hs.main_gives (by simp [Main.held, hmain])
  | enterGetter c hmain hfree => exact hs.main_takes hfree (by simp [Main.held, hmain])
  | leaveGetter c hmain => exact hs.main_gives (by simp [Main.held, hmain])
  | op op rest hmain hready => exact hs.main_keeps (by simp [Main.held, hmain]) _ _
  | handlerReturns q hs' huser hhandlers =>
      exact hs.main_keeps (by simp [Main.held, huser, hhandlers]) _ _
  | handlerThrows q hs' huser hhandlers =>
      exact hs.main_gives (by simp [Main.held, huser, hhandlers])

open Transition in
theorem exclusive_of_reaches {threading : Threading T} {s : System T}
    (h : Reaches (Step threading) {} s) : s.Exclusive :=
  h.invariant (fun _ _ _ hs _ hstep => hstep.exclusive hs) System.exclusive_initial

end DjLink
