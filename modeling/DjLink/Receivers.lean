import DjLink.Threads

/-!
What a step does, to the object, the log and the receivers: a callback arrives,
a critical section of one runs, an event is handed over, or none of these. Most
invariants of the system ask for no more. The first of them is that what a
receiver has still to go through is the end of a callback that it may run.
-/

namespace DjLink

open Transition

/-! ### Threads by callback type -/

def Callback.queue : Callback → Queue
  | .onBeat _ => .beat
  | .onDeviceFound _ => .deviceFound
  | .onDeviceLost _ => .deviceLost
  | .deviceUpdate _ _ => .deviceUpdate
  | .masterChanged _ _ => .masterChanged

def Section.queue : Section → Queue
  | .storeBeat _ => .beat
  | .eraseBeat _ => .deviceLost
  | .storeStatus _ => .deviceUpdate
  | .push event => event.queue

theorem Callback.queue_of_mem_sections {cb : Callback} {sec : Section} (h : sec ∈ cb.sections) :
    sec.queue = cb.queue := by
  cases cb with
  | onBeat beat =>
      simp only [sections, List.mem_cons, List.not_mem_nil, or_false] at h
      rcases h with rfl | rfl <;> rfl
  | onDeviceFound device =>
      simp only [sections, List.mem_cons, List.not_mem_nil, or_false] at h
      rw [h]
      rfl
  | onDeviceLost device =>
      simp only [sections, List.mem_cons, List.not_mem_nil, or_false] at h
      rcases h with rfl | rfl <;> rfl
  | deviceUpdate now update =>
      cases update with
      | cdjStatus status =>
          simp only [sections, List.mem_cons, List.not_mem_nil, or_false] at h
          rcases h with rfl | rfl <;> rfl
      | other => simp [sections] at h
  | masterChanged now update =>
      rcases update with _ | _ | _
      · simp [sections] at h
      · simp only [sections, List.mem_cons, List.not_mem_nil, or_false] at h
        rw [h]
        rfl
      · simp [sections] at h

def Threading.perType {T : Type} (component : T → Component) (runner : Queue → T) :
    Threading T where
  component := component
  runs t cb := t = runner cb.queue

/-- The component whose receive thread runs the callbacks of a type. -/
def Queue.component : Queue → Component
  | .beat => .beatFinder
  | .deviceFound => .deviceFinder
  | .deviceLost => .deviceFinder
  | .deviceUpdate => .virtualCdj
  | .masterChanged => .virtualCdj

/-- The threads of the library, one for each component. -/
abbrev Threading.library : Threading Component := .perType id Queue.component

/-! ### What a step does -/

variable {T : Type}

def System.todo (s : System T) (t : T) : List Section := (s.receivers t).todo

variable [DecidableEq T]

theorem System.todo_update (receivers : T → Receiver) (t : T) (r : Receiver) :
    (fun t' => (Function.update receivers t r t').todo) =
      Function.update (fun t' => (receivers t').todo) t r.todo := by
  funext t'
  by_cases h : t' = t
  · subst h
    simp
  · simp [h]

variable {threading : Threading T} {s t : System T} {l : Label T}

/-- What a step does to the object, to the log and to what the receivers have
still to do. -/
inductive System.Effect (threading : Threading T) (s : System T) (l : Label T) (t : System T) :
    Prop
  | arrival (r : T) (cb : Callback) (hruns : threading.runs r cb) (hidle : s.todo r = [])
      (htodo : t.todo = Function.update s.todo r cb.sections)
      (hlog : t.log = s.log ++ [.arrived cb]) (haddon : t.addon = s.addon)
  | ran (r : T) (sec : Section) (rest : List Section) (hr : s.todo r = sec :: rest)
      (hfree : s.owner sec.mutex = none) (htodo : t.todo = Function.update s.todo r rest)
      (hlog : t.log = s.log ++ [.ran sec]) (haddon : t.addon = s.addon.runSection sec)
  /-- The main thread hands over an event. -/
  | handed (q : Queue) (event : Event) (hl : l = .main)
      (hpop : s.addon.pop q = some (event, t.addon)) (htodo : t.todo = s.todo)
      (hlog : t.log = s.log ++ [.handed event])
  /-- The main thread waits for a component or sets a flag. -/
  | op (op : Op) (htodo : t.todo = s.todo) (hlog : t.log = s.log)
      (haddon : t.addon = op.effect s.addon)
  /-- A thread takes or gives back a mutex, calls or returns. -/
  | silent (htodo : t.todo = s.todo) (hlog : t.log = s.log) (haddon : t.addon = s.addon)

theorem Step.effect (h : Step threading s l t) : s.Effect threading l t := by
  cases h
  case enter r cb hruns hidle =>
    exact .arrival r cb hruns hidle.2 (System.todo_update ..) rfl rfl
  case acquire r sec rest hreceiver hfree =>
    have hr : s.todo r = sec :: rest := by rw [System.todo, hreceiver]
    exact .ran r sec rest hr hfree (System.todo_update ..) rfl rfl
  case release r m rest hreceiver =>
    have hr : s.todo r = rest := by rw [System.todo, hreceiver]
    refine .silent ?_ rfl rfl
    show (fun r' => (Function.update s.receivers r { todo := rest } r').todo) = s.todo
    rw [System.todo_update]
    show Function.update s.todo r rest = s.todo
    rw [← hr, Function.update_eq_self]
  case notify q event popped hmain hpop => exact .handed q event rfl hpop rfl rfl
  case op op rest hmain hready => exact .op op rfl rfl rfl
  all_goals exact .silent rfl rfl rfl

/-! ### Callbacks in progress -/

/-- What is left of the critical sections of a receiver is the end of a
callback that it may run. -/
def System.InProgress (threading : Threading T) (s : System T) : Prop :=
  ∀ r, s.todo r = [] ∨ ∃ cb, threading.runs r cb ∧ s.todo r <:+ cb.sections

theorem Step.inProgress (h : Step threading s l t) (hs : s.InProgress threading) :
    t.InProgress threading := by
  intro r
  cases h.effect with
  | arrival r' cb hruns hidle htodo hlog haddon =>
      rw [htodo]
      by_cases heq : r = r'
      · subst heq
        rw [Function.update_self]
        exact .inr ⟨cb, hruns, List.suffix_rfl⟩
      · rw [Function.update_of_ne heq]
        exact hs r
  | ran r' sec rest hr' hfree htodo hlog haddon =>
      rw [htodo]
      by_cases heq : r = r'
      · subst heq
        rw [Function.update_self]
        obtain hnil | ⟨cb, hruns, hsuffix⟩ := hs r
        · rw [hr'] at hnil
          cases hnil
        · rw [hr'] at hsuffix
          exact .inr ⟨cb, hruns, (List.suffix_cons sec rest).trans hsuffix⟩
      · rw [Function.update_of_ne heq]
        exact hs r
  | handed q event hl hpop htodo hlog =>
      rw [htodo]
      exact hs r
  | op op htodo hlog haddon =>
      rw [htodo]
      exact hs r
  | silent htodo hlog haddon =>
      rw [htodo]
      exact hs r

theorem inProgress_of_reaches (h : Reaches (Step threading) {} s) : s.InProgress threading :=
  h.invariant (fun _ _ _ hs _ hstep => hstep.inProgress hs) fun _ => .inl rfl

omit [DecidableEq T] in
/-- A thread has sections of a type to go through only if it is the thread of
that type. -/
theorem System.InProgress.runner_eq {component : T → Component} {runner : Queue → T}
    (hs : s.InProgress (.perType component runner)) {r : T} {sec : Section}
    (hsec : sec ∈ s.todo r) : runner sec.queue = r := by
  obtain hnil | ⟨cb, hruns, hsuffix⟩ := hs r
  · rw [hnil] at hsec
    cases hsec
  · have hqueue := Callback.queue_of_mem_sections (hsuffix.subset hsec)
    rw [hqueue]
    exact hruns.symm

end DjLink
