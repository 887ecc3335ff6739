import DjLink.Sequential
import DjLink.Receivers
import DjLink.Library.WaitGraph

/-!
Who waits for whom. `update()` holds the mutex of a queue while the handlers of
its events run, a callback that pushes to the queue waits for that mutex, and
`stop()` and `stopVirtualCdj()` wait for callbacks. A handler that calls one of
these can therefore close a cycle of waits, or wait for a mutex that its own
thread holds; a cycle, once closed, is never left.

The calls that can do so are singled out by `PublicCall.Harmless`. Without
them the waits have a rank, so there is no cycle, and the main thread gets on
from wherever it is as soon as the callbacks in progress have moved on.
-/

namespace DjLink

open Transition WaitGraph

section Waits

variable {T : Type}

/-- `s.Waits threading x y`: thread `x` cannot go on before `y` has given up a
mutex or has returned from a callback. -/
inductive System.Waits (threading : Threading T) (s : System T) : Thread T → Thread T → Prop
  | drain (q : Queue) (x : Thread T) (hmain : s.main.activity = .lock q)
      (howner : s.owner q.mutex = some x) : Waits threading s .main x
  | getter (c : Cache) (x : Thread T) (hmain : s.main.activity = .enterGetter c)
      (howner : s.owner c.mutex = some x) : Waits threading s .main x
  | join (t : T) (rest : List Op)
      (hmain : s.main.activity = .run (.join (threading.component t)) rest)
      (hbusy : ¬ (s.receivers t).Idle) : Waits threading s .main (.receiver t)
  | callback (t : T) (sec : Section) (rest : List Section) (x : Thread T)
      (hreceiver : s.receivers t = { todo := sec :: rest })
      (howner : s.owner sec.mutex = some x) : Waits threading s (.receiver t) x

variable [DecidableEq T] {threading : Threading T} {s t : System T} {l : Label T}

/-! ### Cycles are never left -/

theorem Step.main_of_waits (h : Step threading s l t) {x : Thread T}
    (hwaits : s.Waits threading .main x) : t.main = s.main := by
  cases h
  case enter | acquire | release => rfl
  case op op rest hmain hready =>
    cases hwaits with
    | drain q x hmain' howner => simp_all
    | getter c x hmain' howner => simp_all
    | join r rest' hmain' hbusy =>
        -- the wait is over only when the callback is
        obtain ⟨rfl, rfl⟩ : op = .join (threading.component r) ∧ rest = rest' := by
          simpa [hmain'] using hmain.symm
        exact absurd (hready r rfl) hbusy
  -- all other steps of the main thread start elsewhere, or find the mutex free
  all_goals cases hwaits <;> simp_all

theorem Step.receiver_of_waits (h : Step threading s l t) {r : T} {x : Thread T}
    (hwaits : s.Waits threading (.receiver r) x) : t.receivers r = s.receivers r := by
  obtain ⟨sec, rest, hr, howner⟩ : ∃ sec rest, s.receivers r = { todo := sec :: rest } ∧
      s.owner sec.mutex = some x := by
    cases hwaits with
    | callback t sec rest x hreceiver howner => exact ⟨sec, rest, hreceiver, howner⟩
  cases h
  case enter r' cb hruns hidle =>
    apply Function.update_of_ne
    rintro rfl
    simp [Receiver.Idle, hr] at hidle
  case acquire r' sec' rest' hreceiver hfree =>
    apply Function.update_of_ne
    rintro rfl
    rw [hr] at hreceiver
    simp_all
  case release r' m rest' hreceiver =>
    apply Function.update_of_ne
    rintro rfl
    simp [hr] at hreceiver
  all_goals rfl

theorem Step.owner_of_waits (h : Step threading s l t) (hs : s.Exclusive) {m : Mutex}
    {x y : Thread T} (howner : s.owner m = some x) (hwaits : s.Waits threading x y) :
    t.owner m = some x := by
  have hholds : s.Holds x m := (hs.consistent x m).mpr howner
  apply ((h.exclusive hs).consistent x m).mp
  cases x with
  | main =>
      show m ∈ t.main.held
      rw [h.main_of_waits hwaits]
      exact hholds
  | receiver r =>
      show (t.receivers r).holding = some m
      rw [h.receiver_of_waits hwaits]
      exact hholds

/-- A wait for a thread that itself waits outlives every step. -/
theorem Step.waits_persists (h : Step threading s l t) (hs : s.Exclusive) {x y z : Thread T}
    (hxy : s.Waits threading x y) (hyz : s.Waits threading y z) : t.Waits threading x y := by
  cases hxy with
  | drain q y hmain howner =>
      refine .drain q y ?_ (h.owner_of_waits hs howner hyz)
      rw [h.main_of_waits (.drain q y hmain howner), hmain]
  | getter c y hmain howner =>
      refine .getter c y ?_ (h.owner_of_waits hs howner hyz)
      rw [h.main_of_waits (.getter c y hmain howner), hmain]
  | join r rest hmain hbusy =>
      refine .join r rest ?_ ?_
      · rw [h.main_of_waits (.join r rest hmain hbusy), hmain]
      · rw [h.receiver_of_waits hyz]
        exact hbusy
  | callback r sec rest y hreceiver howner =>
      refine .callback r sec rest y ?_ (h.owner_of_waits hs howner hyz)
      rw [h.receiver_of_waits (.callback r sec rest y hreceiver howner), hreceiver]

/-- A main thread on a cycle of waits never moves again. -/
theorem stuck_forever (hs : s.Exclusive)
    (hcycle : Relation.TransGen (s.Waits threading) .main .main)
    (h : Reaches (Step threading) s t) : t.main = s.main := by
  have hrun : t.Exclusive ∧ Relation.TransGen (t.Waits threading) .main .main ∧
      t.main = s.main := by
    refine h.invariant (I := fun u : System T => u.Exclusive ∧
      Relation.TransGen (u.Waits threading) .main .main ∧ u.main = s.main) ?_ ⟨hs, hcycle, rfl⟩
    rintro u l v ⟨hu, hcycle, hmain⟩ - hstep
    obtain ⟨y, hwaits, -⟩ := Relation.TransGen.head'_iff.mp hcycle
    refine ⟨hstep.exclusive hu, cycle_persists ?_ hcycle, ?_⟩
    · intro a b c hab hbc
      exact hstep.waits_persists hu hab hbc
    · rw [hstep.main_of_waits hwaits, hmain]
  exact hrun.2.2

end Waits

/-! ### Calls from handlers -/

/-- A call that a handler of an event of `q` can make without closing a cycle:
no `update()`, and nothing that waits for the callbacks of the thread that
pushes to `q`. -/
def PublicCall.Harmless (self : OfxBeatLink) (q : Queue) : PublicCall → Prop
  | .update => False
  | .stop => self.running = true → q.component = .virtualCdj
  | .start deviceStarted beatStarted =>
      self.running = false → deviceStarted = true → beatStarted = false →
        q.component ≠ .deviceFinder
  | .stopVirtualCdj => self.virtualCdjRunning = true → q.component ≠ .virtualCdj
  | _ => True

def System.Harmless {T : Type} (s : System T) : Label T → Prop
  | .call c => ∀ q ∈ s.main.handlers, c.Harmless s.addon q
  | _ => True

def Activity.joins : Activity → List Component
  | .run op rest => (op :: rest).filterMap fun op =>
      match op with
      | .join c => some c
      | _ => none
  | _ => []

def Activity.InUpdate : Activity → Prop
  | .lock _ => True
  | .loop _ => True
  | _ => False

/-- The order that harmless calls keep: drains are not nested, and what the
main thread waits for does not push to a queue whose handlers are running. -/
structure Main.Orderly (main : Main) : Prop where
  flat : main.handlers.length ≤ 1
  drains : main.activity.InUpdate → main.handlers = []
  joins : ∀ c ∈ main.activity.joins, ∀ q ∈ main.handlers, q.component ≠ c

@[simp] theorem Activity.inUpdate_ofOps (ops : List Op) : ¬ (Activity.ofOps ops).InUpdate := by
  cases ops <;> simp [ofOps, InUpdate]

theorem Activity.mem_joins_of_rest {op : Op} {rest : List Op} {c : Component}
    (h : c ∈ (Activity.ofOps rest).joins) : c ∈ (Activity.run op rest).joins := by
  cases rest with
  | nil => cases h
  | cons op' rest =>
      simp only [ofOps, joins, List.mem_filterMap] at h ⊢
      obtain ⟨op'', hmem, hop⟩ := h
      exact ⟨op'', List.mem_cons_of_mem op hmem, hop⟩

theorem PublicCall.Harmless.activity {c : PublicCall} {self : OfxBeatLink} {q : Queue}
    (h : c.Harmless self q) :
    ¬ (c.activity self).InUpdate ∧ ∀ d ∈ (c.activity self).joins, q.component ≠ d := by
  cases c with
  | update => exact h.elim
  | stop =>
      refine ⟨Activity.inUpdate_ofOps _, ?_⟩
      simp only [PublicCall.activity, stopOps]
      cases hrunning : self.running with
      | false => simp [Activity.ofOps, Activity.joins]
      | true =>
          have hq := h hrunning
          simp [Activity.ofOps, Activity.joins, hq]
  | start deviceStarted beatStarted =>
      refine ⟨Activity.inUpdate_ofOps _, ?_⟩
      simp only [PublicCall.activity, startOps]
      cases hrunning : self.running with
      | true => simp [Activity.ofOps, Activity.joins]
      | false =>
          cases deviceStarted with
          | false => simp [Activity.ofOps, Activity.joins]
          | true =>
              cases beatStarted with
              | true => simp [Activity.ofOps, Activity.joins]
              | false =>
                  have hq := h hrunning rfl rfl
                  simp [Activity.ofOps, Activity.joins, hq]
  | stopVirtualCdj =>
      refine ⟨Activity.inUpdate_ofOps _, ?_⟩
      simp only [PublicCall.activity, stopVirtualCdjOps]
      cases hrunning : self.virtualCdjRunning with
      | false => simp [Activity.ofOps, Activity.joins]
      | true =>
          have hq := h hrunning
          simp [Activity.ofOps, Activity.joins, hq]
  | startVirtualCdj started =>
      refine ⟨Activity.inUpdate_ofOps _, ?_⟩
      simp only [PublicCall.activity, startVirtualCdjOps]
      cases self.virtualCdjRunning <;> cases started <;> simp [Activity.ofOps, Activity.joins]
  | _ => simp [PublicCall.activity, Activity.InUpdate, Activity.joins]

theorem Main.orderly_initial : ({} : Main).Orderly where
  flat := Nat.zero_le 1
  drains _ := rfl
  joins c hc := by cases hc

theorem Main.orderly_of_no_handlers {main : Main} (h : main.handlers = []) : main.Orderly where
  flat := by rw [h]; exact Nat.zero_le 1
  drains _ := h
  joins c _ q hq := by rw [h] at hq; cases hq

/-- In order there are no handlers below the one that runs. -/
theorem Main.Orderly.tail {main : Main} (h : main.Orderly) {q : Queue} {hs : List Queue}
    (hhandlers : main.handlers = q :: hs) : hs = [] := by
  have hflat := h.flat
  rw [hhandlers, List.length_cons] at hflat
  apply List.eq_nil_of_length_eq_zero
  omega

theorem Main.Orderly.of_activity {main : Main} (h : main.Orderly) {a : Activity}
    (hupdate : ¬ a.InUpdate) (hjoins : a.joins = []) :
    ({ main with activity := a } : Main).Orderly where
  flat := h.flat
  drains ha := absurd ha hupdate
  joins c hc := by rw [hjoins] at hc; cases hc

section

variable {T : Type} [DecidableEq T] {threading : Threading T} {s t : System T} {l : Label T}

theorem Step.orderly (h : Step threading s l t) (hl : s.Harmless l) (hs : s.main.Orderly) :
    t.main.Orderly := by
  cases h
  case enter | acquire | release => exact hs
  case call c huser =>
    refine ⟨hs.flat, fun hupdate => ?_, fun d hd q hq => ?_⟩
    · -- only a call from outside the handlers starts a drain
      by_contra hhandlers
      obtain ⟨q, hq⟩ := List.exists_mem_of_ne_nil _ hhandlers
      exact (hl q hq).activity.1 hupdate
    · exact (hl q hq).activity.2 d hd
  case lock q hmain hfree =>
    apply Main.orderly_of_no_handlers
    exact hs.drains (by rw [hmain]; trivial)
  case notify q event popped hmain hpop =>
    have hnone : s.main.handlers = [] := hs.drains (by rw [hmain]; trivial)
    refine ⟨?_, fun hupdate => hupdate.elim, fun c hc => by cases hc⟩
    show (q :: s.main.handlers).length ≤ 1
    rw [hnone]
    exact Nat.le_refl 1
  case unlock q hmain hempty =>
    apply Main.orderly_of_no_handlers
    exact hs.drains (by rw [hmain]; trivial)
  case enterGetter c hmain hfree => exact hs.of_activity id rfl
  case leaveGetter c hmain => exact hs.of_activity id rfl
  case op op rest hmain hready =>
    refine ⟨hs.flat, fun hupdate => absurd hupdate (Activity.inUpdate_ofOps rest),
      fun c hc q hq => ?_⟩
    apply hs.joins c ?_ q hq
    rw [hmain]
    exact Activity.mem_joins_of_rest hc
  case handlerReturns q hs' huser hhandlers => exact Main.orderly_of_no_handlers (hs.tail hhandlers)
  case handlerThrows q hs' huser hhandlers => exact Main.orderly_of_no_handlers (hs.tail hhandlers)

theorem orderly_of_runs (h : Runs (Step threading) System.Harmless {} s) : s.main.Orderly :=
  h.invariant (I := fun s : System T => s.main.Orderly)
    (fun _ _ _ hs hl hstep => hstep.orderly hl hs) Main.orderly_initial

end

/-! ### No cycles among harmless calls -/

variable {s : System Component}

/-- What a receiver locks: a cache, or the queue of the callbacks that its own
component runs. -/
theorem System.InProgress.mutex_cases (hs : s.InProgress .library) {c : Component} {sec : Section}
    (hsec : sec ∈ s.todo c) :
    (∃ cache : Cache, sec.mutex = cache.mutex) ∨
      ∃ q : Queue, sec.mutex = q.mutex ∧ q.component = c := by
  have hrunner : sec.queue.component = c := hs.runner_eq hsec
  cases sec with
  | storeBeat ofBeat => exact .inl ⟨.latestBeats, rfl⟩
  | eraseBeat d => exact .inl ⟨.latestBeats, rfl⟩
  | storeStatus ofStatus => exact .inl ⟨.latestStatuses, rfl⟩
  | push event => exact .inr ⟨event.queue, rfl, hrunner⟩

structure System.WellBehaved (s : System Component) : Prop where
  exclusive : s.Exclusive
  inProgress : s.InProgress .library
  orderly : s.main.Orderly

theorem wellBehaved_of_runs (h : Runs (Step .library) System.Harmless {} s) : s.WellBehaved :=
  ⟨exclusive_of_reaches h.reaches, inProgress_of_reaches h.reaches, orderly_of_runs h⟩

/-- Where the main thread waits, it holds at most the mutexes of the queues
whose handlers are running. -/
theorem System.WellBehaved.main_owner (hs : s.WellBehaved) {m : Mutex}
    (hheld : s.main.activity.held = []) (howner : s.owner m = some .main) :
    ∃ q ∈ s.main.handlers, q.mutex = m := by
  have hholds : m ∈ s.main.held := (hs.exclusive.consistent .main m).mpr howner
  rw [Main.held, hheld, List.nil_append] at hholds
  exact List.mem_map.mp hholds

theorem System.WellBehaved.drain_owner (hs : s.WellBehaved) {q : Queue}
    (hmain : s.main.activity = .lock q) : s.owner q.mutex ≠ some .main := by
  intro howner
  obtain ⟨r, hr, -⟩ := hs.main_owner (by rw [hmain]; rfl) howner
  rw [hs.orderly.drains (by rw [hmain]; trivial)] at hr
  cases hr

theorem System.WellBehaved.getter_owner (hs : s.WellBehaved) {c : Cache}
    (hmain : s.main.activity = .enterGetter c) : s.owner c.mutex ≠ some .main := by
  intro howner
  obtain ⟨r, -, hr⟩ := hs.main_owner (by rw [hmain]; rfl) howner
  exact c.mutex_ne r hr.symm

theorem System.WellBehaved.join_owner (hs : s.WellBehaved) {c : Component} {rest : List Op}
    (hmain : s.main.activity = .run (.join c) rest) {sec : Section} (hsec : sec ∈ s.todo c) :
    s.owner sec.mutex ≠ some .main := by
  intro howner
  obtain ⟨r, hr, hmutex⟩ := hs.main_owner (by rw [hmain]; rfl) howner
  obtain ⟨cache, hcache⟩ | ⟨q, hq, hqc⟩ := hs.inProgress.mutex_cases hsec
  · exact cache.mutex_ne r (hcache.symm.trans hmutex.symm)
  · obtain rfl : r = q := Queue.mutex_injective (hmutex.trans hq)
    refine hs.orderly.joins c ?_ r hr hqc
    rw [hmain]
    exact List.mem_cons_self

/-- A thread in a critical section waits for nobody. One that waits for it comes
next, then the main thread, and then who waits for the main thread. -/
def System.rank (s : System Component) : Thread Component → ℕ
  | .main => 2
  | .receiver c =>
      if (s.receivers c).holding ≠ none then 0
      else
        match (s.todo c).head? with
        | none => 0
        | some sec => if s.owner sec.mutex = some .main then 3 else 1

theorem System.rank_of_owner (hs : s.Exclusive) {m : Mutex} {c : Component}
    (howner : s.owner m = some (.receiver c)) : s.rank (.receiver c) = 0 := by
  have hholds : (s.receivers c).holding = some m := (hs.consistent (.receiver c) m).mpr howner
  simp [rank, hholds]

theorem System.rank_lt_main {c : Component}
    (hnotMain : ∀ sec ∈ s.todo c, s.owner sec.mutex ≠ some .main) :
    s.rank (.receiver c) < s.rank .main := by
  show s.rank (.receiver c) < 2
  rw [rank]
  split
  · omega
  · split
    · omega
    · rename_i sec hhead
      rw [if_neg (hnotMain sec (List.mem_of_mem_head? hhead))]
      omega

theorem System.WellBehaved.rank_lt (hs : s.WellBehaved) (x y : Thread Component)
    (h : s.Waits .library x y) : s.rank y < s.rank x := by
  cases h with
  | drain q y hmain howner =>
      cases y with
      | main => exact absurd howner (hs.drain_owner hmain)
      | receiver c =>
          rw [System.rank_of_owner hs.exclusive howner]
          exact Nat.zero_lt_two
  | getter c y hmain howner =>
      cases y with
      | main => exact absurd howner (hs.getter_owner hmain)
      | receiver c =>
          rw [System.rank_of_owner hs.exclusive howner]
          exact Nat.zero_lt_two
  | join c rest hmain hbusy =>
      apply System.rank_lt_main
      intro sec hsec
      exact hs.join_owner hmain hsec
  | callback c sec rest y hreceiver howner =>
      have hrank : s.rank (.receiver c) = if s.owner sec.mutex = some .main then 3 else 1 := by
        simp [System.rank, System.todo, hreceiver]
      rw [hrank]
      cases y with
      | main =>
          rw [if_pos howner]
          exact Nat.lt_succ_self 2
      | receiver d =>
          rw [System.rank_of_owner hs.exclusive howner, howner, if_neg (by simp)]
          exact Nat.zero_lt_one

theorem System.WellBehaved.acyclic (hs : s.WellBehaved) : ¬ Deadlock (s.Waits .library) :=
  not_deadlock_of_rank s.rank hs.rank_lt

/-! ### The main thread gets on -/

section

variable {T : Type} [DecidableEq T] (threading : Threading T) {s : System T}

def OnlyReceivers (_ : System T) (l : Label T) : Prop := ∃ r, l = .receiver r

variable {threading} in
theorem exclusive_of_runs {P : System T → Label T → Prop} {t : System T} (hs : s.Exclusive)
    (h : Runs (Step threading) P s t) : t.Exclusive :=
  h.invariant (fun _ _ _ hs _ hstep => hstep.exclusive hs) hs

/-- A mutex that the main thread does not hold becomes free: the receiver that
holds it leaves its critical section. -/
theorem mutex_becomes_free (hs : s.Exclusive) {m : Mutex} (hm : s.owner m ≠ some .main) :
    ∃ t, Runs (Step threading) OnlyReceivers s t ∧ t.main = s.main ∧ t.owner m = none ∧
      ∀ r, (s.receivers r).holding = none → t.receivers r = s.receivers r := by
  cases howner : s.owner m with
  | none => exact ⟨s, .refl, rfl, howner, fun r _ => rfl⟩
  | some x =>
      cases x with
      | main => exact absurd howner hm
      | receiver r =>
          have hholds : (s.receivers r).holding = some m :=
            (hs.consistent (.receiver r) m).mpr howner
          have hrelease : Step threading s (.receiver r) _ :=
            .release s r m (s.receivers r).todo (by rw [← hholds])
          refine ⟨_, Runs.single ⟨r, rfl⟩ hrelease, rfl, Function.update_self .., ?_⟩
          intro r' hr'
          apply Function.update_of_ne
          rintro rfl
          rw [hholds] at hr'
          cases hr'

/-- A receiver leaves the critical section that it is in, if it is in one. -/
theorem leaves_section (s : System T) (r : T) :
    ∃ t, Runs (Step threading) OnlyReceivers s t ∧ t.main = s.main ∧
      t.receivers r = { todo := s.todo r } := by
  cases hholding : (s.receivers r).holding with
  | none => exact ⟨s, .refl, rfl, by rw [System.todo, ← hholding]⟩
  | some m =>
      have hrelease : Step threading s (.receiver r) _ :=
        .release s r m (s.receivers r).todo (by rw [← hholding])
      exact ⟨_, Runs.single ⟨r, rfl⟩ hrelease, rfl, Function.update_self ..⟩

theorem section_finishes {s : System T} (hs : s.Exclusive) {r : T} {sec : Section}
    {rest : List Section} (hr : s.receivers r = { todo := sec :: rest })
    (hfree : sec.mutex ∉ s.main.held) :
    ∃ t, Runs (Step threading) OnlyReceivers s t ∧ t.main = s.main ∧
      t.receivers r = { todo := rest } := by
  have hnotMain : s.owner sec.mutex ≠ some .main := by
    intro howner
    exact hfree ((hs.consistent .main sec.mutex).mpr howner)
  obtain ⟨t, ht, hmain, hnone, hkeeps⟩ := mutex_becomes_free threading hs hnotMain
  have htr : t.receivers r = { todo := sec :: rest } := by
    rw [hkeeps r (by rw [hr]), hr]
  have hsection := section_run threading r sec rest t htr hnone
  exact ⟨_, ht.trans (hsection.mono fun _ _ hl => ⟨r, hl⟩), hmain, Function.update_self ..⟩

theorem sections_finish (r : T) (todo : List Section) (s : System T) (hs : s.Exclusive)
    (hr : s.receivers r = { todo := todo }) (hfree : ∀ sec ∈ todo, sec.mutex ∉ s.main.held) :
    ∃ t, Runs (Step threading) OnlyReceivers s t ∧ t.main = s.main ∧ (t.receivers r).Idle := by
  induction todo generalizing s with
  | nil => exact ⟨s, .refl, rfl, by rw [hr]; exact ⟨rfl, rfl⟩⟩
  | cons sec rest ih =>
      obtain ⟨u, hu, hmain, hur⟩ :=
        section_finishes threading hs hr (hfree sec List.mem_cons_self)
      have hrest : ∀ sec' ∈ rest, sec'.mutex ∉ u.main.held := by
        intro sec' hsec'
        rw [hmain]
        exact hfree sec' (List.mem_cons_of_mem sec hsec')
      obtain ⟨t, ht, htmain, hidle⟩ := ih u (exclusive_of_runs hs hu) hur hrest
      exact ⟨t, hu.trans ht, htmain.trans hmain, hidle⟩

theorem sections_wait (r : T) (todo : List Section) (s : System T) (hs : s.Exclusive)
    (hr : s.receivers r = { todo := todo }) (hheld : ∃ sec ∈ todo, sec.mutex ∈ s.main.held) :
    ∃ t, Runs (Step threading) OnlyReceivers s t ∧ t.main = s.main ∧
      t.Waits threading (.receiver r) .main := by
  induction todo generalizing s with
  | nil =>
      obtain ⟨sec, hsec, -⟩ := hheld
      cases hsec
  | cons sec rest ih =>
      by_cases hsec : sec.mutex ∈ s.main.held
      · have howner := (hs.consistent .main sec.mutex).mp hsec
        exact ⟨s, .refl, rfl, .callback r sec rest .main hr howner⟩
      · obtain ⟨u, hu, hmain, hur⟩ := section_finishes threading hs hr hsec
        have hrest : ∃ sec' ∈ rest, sec'.mutex ∈ u.main.held := by
          obtain ⟨sec', hsec', hheld⟩ := hheld
          rw [hmain]
          rcases List.mem_cons.mp hsec' with rfl | hsec'
          · exact absurd hheld hsec
          · exact ⟨sec', hsec', hheld⟩
        obtain ⟨t, ht, htmain, hwaits⟩ := ih u (exclusive_of_runs hs hu) hur hrest
        exact ⟨t, hu.trans ht, htmain.trans hmain, hwaits⟩

theorem callback_finishes (hs : s.Exclusive) (r : T)
    (hfree : ∀ sec ∈ s.todo r, sec.mutex ∉ s.main.held) :
    ∃ t, Runs (Step threading) OnlyReceivers s t ∧ t.main = s.main ∧ (t.receivers r).Idle := by
  obtain ⟨u, hu, hmain, hur⟩ := leaves_section threading s r
  obtain ⟨t, ht, htmain, hidle⟩ := sections_finish threading r (s.todo r) u
    (exclusive_of_runs hs hu) hur (by rwa [hmain])
  exact ⟨t, hu.trans ht, htmain.trans hmain, hidle⟩

end

/-- No thread waits for itself, directly or through others, and a main thread
that is inside a method has a step ahead, at the latest when the receivers have
moved on. -/
structure System.Live (s : System Component) : Prop where
  acyclic : ¬ Deadlock (s.Waits .library)
  proceeds : s.main.activity ≠ .user →
    ∃ t u, Runs (Step .library) OnlyReceivers s t ∧ Step .library t .main u

theorem System.WellBehaved.proceeds (hs : s.WellBehaved) (huser : s.main.activity ≠ .user) :
    ∃ t u, Runs (Step .library) OnlyReceivers s t ∧ Step .library t .main u := by
  cases hmain : s.main.activity with
  | user => exact absurd hmain huser
  | lock q =>
      obtain ⟨t, ht, htmain, hfree, -⟩ :=
        mutex_becomes_free .library hs.exclusive (hs.drain_owner hmain)
      exact ⟨t, _, ht, .lock t q (by rw [htmain, hmain]) hfree⟩
  | loop q =>
      cases hpop : s.addon.pop q with
      | none => exact ⟨s, _, .refl, .unlock s q hmain hpop⟩
      | some x => exact ⟨s, _, .refl, .notify s q x.1 x.2 hmain hpop⟩
  | enterGetter c =>
      obtain ⟨t, ht, htmain, hfree, -⟩ :=
        mutex_becomes_free .library hs.exclusive (hs.getter_owner hmain)
      exact ⟨t, _, ht, .enterGetter t c (by rw [htmain, hmain]) hfree⟩
  | inGetter c => exact ⟨s, _, .refl, .leaveGetter s c hmain⟩
  | run op rest =>
      cases op with
      | setRunning value => exact ⟨s, _, .refl, .op s _ rest hmain trivial⟩
      | setVirtualCdjRunning value => exact ⟨s, _, .refl, .op s _ rest hmain trivial⟩
      | join c =>
          -- the one callback that the component can have in progress finishes
          have hfree : ∀ sec ∈ s.todo c, sec.mutex ∉ s.main.held := by
            intro sec hsec hheld
            exact hs.join_owner hmain hsec ((hs.exclusive.consistent .main sec.mutex).mp hheld)
          obtain ⟨t, ht, htmain, hidle⟩ :=
            callback_finishes .library hs.exclusive c hfree
          have hready : (Op.join c).Ready .library t.receivers := by
            rintro c' rfl
            exact hidle
          exact ⟨t, _, ht, .op t _ rest (by rw [htmain, hmain]) hready⟩

theorem live_of_runs {s : System Component} (h : Runs (Step .library) System.Harmless {} s) :
    s.Live :=
  ⟨(wellBehaved_of_runs h).acyclic, (wellBehaved_of_runs h).proceeds⟩

/-! ### Every other call can deadlock -/

theorem OnlyReceivers.harmless {T : Type} (s : System T) (l : Label T) (h : OnlyReceivers s l) :
    s.Harmless l := by
  obtain ⟨r, rfl⟩ := h
  trivial

theorem OnlyDrain.harmless {T : Type} (s : System T) (l : Label T) (h : OnlyDrain s l) :
    s.Harmless l := by
  rcases h with rfl | rfl <;> trivial

theorem exists_callback (q : Queue) :
    ∃ cb : Callback, cb.queue = q ∧ ∃ sec ∈ cb.sections, sec.mutex = q.mutex := by
  cases q with
  | beat => exact ⟨.onBeat default, rfl, _, List.mem_cons_of_mem _ List.mem_cons_self, rfl⟩
  | deviceFound => exact ⟨.onDeviceFound default, rfl, _, List.mem_cons_self, rfl⟩
  | deviceLost =>
      exact ⟨.onDeviceLost default, rfl, _, List.mem_cons_of_mem _ List.mem_cons_self, rfl⟩
  | deviceUpdate =>
      exact ⟨.deviceUpdate 0 (.cdjStatus default), rfl, _,
        List.mem_cons_of_mem _ List.mem_cons_self, rfl⟩
  | masterChanged =>
      exact ⟨.masterChanged 0 (some (.cdjStatus default)), rfl, _, List.mem_cons_self, rfl⟩

/-- The thread that pushes to a queue can come to wait for a main thread that
holds the mutex of the queue. -/
theorem pusher_waits (hs : s.Exclusive) {q : Queue} (hq : q.mutex ∈ s.main.held) :
    ∃ t, Runs (Step .library) OnlyReceivers s t ∧ t.main = s.main ∧
      t.Waits .library (.receiver q.component) .main := by
  by_cases htodo : ∃ sec ∈ s.todo q.component, sec.mutex ∈ s.main.held
  · obtain ⟨u, hu, hmain, hur⟩ := leaves_section .library s q.component
    obtain ⟨t, ht, htmain, hwaits⟩ := sections_wait .library q.component _ u
      (exclusive_of_runs hs hu) hur (by rwa [hmain])
    exact ⟨t, hu.trans ht, htmain.trans hmain, hwaits⟩
  · -- the callback in progress ends, and the next one needs the mutex
    have hfree : ∀ sec ∈ s.todo q.component, sec.mutex ∉ s.main.held :=
      fun sec hsec hheld => htodo ⟨sec, hsec, hheld⟩
    obtain ⟨u, hu, hmain, hidle⟩ := callback_finishes .library hs q.component hfree
    obtain ⟨cb, hcb, sec, hsec, hmutex⟩ := exists_callback q
    have henter : Step .library u (.receiver q.component) _ :=
      .enter u q.component cb (by rw [← hcb]; rfl) hidle
    have hv := hu.trans (Runs.single ⟨q.component, rfl⟩ henter)
    have hheld : sec.mutex ∈ u.main.held := by rwa [hmutex, hmain]
    obtain ⟨t, ht, htmain, hwaits⟩ := sections_wait .library q.component cb.sections _
      (exclusive_of_runs hs hv) (Function.update_self ..) ⟨sec, hsec, hheld⟩
    exact ⟨t, hv.trans ht, htmain.trans hmain, hwaits⟩

/-- A main thread that holds the mutex of a queue and waits for the callbacks of
the component that pushes to it can deadlock. -/
theorem join_deadlocks (hs : s.Exclusive) {q : Queue} {rest : List Op}
    (hmain : s.main.activity = .run (.join q.component) rest) (hq : q.mutex ∈ s.main.held) :
    ∃ t, Runs (Step .library) System.Harmless s t ∧ Deadlock (t.Waits .library) := by
  obtain ⟨t, ht, htmain, hwaits⟩ := pusher_waits hs hq
  have hbusy : ¬ (t.receivers q.component).Idle := by
    intro hidle
    cases hwaits with
    | callback c sec rest x hreceiver howner => simp [Receiver.Idle, hreceiver] at hidle
  have hjoin : t.Waits .library .main (.receiver q.component) :=
    .join q.component rest (by rw [htmain, hmain]; rfl) hbusy
  exact ⟨t, ht.mono OnlyReceivers.harmless, .of_pair hjoin hwaits⟩

def Queue.position : Queue → ℕ
  | .beat => 0
  | .deviceFound => 1
  | .deviceLost => 2
  | .deviceUpdate => 3
  | .masterChanged => 4

theorem Queue.next_of_position_lt {q r : Queue} (h : r.position < q.position) :
    ∃ r', r.next = some r' ∧ r'.position = r.position + 1 := by
  cases r with
  | beat => exact ⟨.deviceFound, rfl, rfl⟩
  | deviceFound => exact ⟨.deviceLost, rfl, rfl⟩
  | deviceLost => exact ⟨.deviceUpdate, rfl, rfl⟩
  | deviceUpdate => exact ⟨.masterChanged, rfl, rfl⟩
  | masterChanged => cases q <;> simp [position] at h

theorem Queue.eq_of_position_eq {q r : Queue} (h : r.position = q.position) : r = q := by
  cases r <;> cases q <;> simp_all [position]

/-- A nested `update()` goes through the drains before the one whose handler
called it, and there it waits for itself. -/
theorem nested_update_deadlocks {q : Queue} (n : ℕ) (r : Queue)
    (hn : r.position + n = q.position) (s : System Component) (hs : s.Exclusive)
    (hmain : s.main = { activity := .lock r, handlers := [q] }) :
    ∃ t, Runs (Step .library) System.Harmless s t ∧ Deadlock (t.Waits .library) := by
  have hheld : s.main.held = [q.mutex] := by rw [hmain]; rfl
  induction n generalizing r s with
  | zero =>
      obtain rfl := Queue.eq_of_position_eq hn
      have howner : s.owner r.mutex = some .main := by
        apply (hs.consistent .main r.mutex).mp
        show r.mutex ∈ s.main.held
        rw [hheld]
        exact List.mem_cons_self
      exact ⟨s, .refl, .of_self (.drain r .main (by rw [hmain]) howner)⟩
  | succ n ih =>
      have hne : s.owner r.mutex ≠ some .main := by
        intro howner
        have hmem : r.mutex ∈ s.main.held := (hs.consistent .main r.mutex).mpr howner
        rw [hheld, List.mem_singleton] at hmem
        obtain rfl := Queue.mutex_injective hmem
        omega
      obtain ⟨u, hu, humain, hfree, -⟩ := mutex_becomes_free .library hs hne
      have hdrain := drain_run .library r u (by rw [humain, hmain]) hfree
      obtain ⟨r', hnext, hposition⟩ := Queue.next_of_position_lt (q := q) (r := r) (by omega)
      have hv := (hu.mono OnlyReceivers.harmless).trans (hdrain.mono OnlyDrain.harmless)
      have hvmain : ({ u.main with activity := .afterLoop r } : Main) =
          { activity := .lock r', handlers := [q] } := by
        rw [humain, hmain, Activity.afterLoop, hnext]
      obtain ⟨t, ht, hdeadlock⟩ := ih r' (by omega) _ (exclusive_of_runs hs hv) hvmain
        (by rw [hvmain]; rfl)
      exact ⟨t, hv.trans ht, hdeadlock⟩

/-- The sections of a component that does not push to the queue whose handler is
running need no mutex of the main thread. -/
theorem System.InProgress.not_held (hs : s.InProgress .library) {q : Queue} {c : Component}
    (hheld : s.main.held = [q.mutex]) (hqc : q.component ≠ c) :
    ∀ sec ∈ s.todo c, sec.mutex ∉ s.main.held := by
  intro sec hsec hmem
  rw [hheld, List.mem_singleton] at hmem
  obtain ⟨cache, hcache⟩ | ⟨r, hr, hrc⟩ := hs.mutex_cases hsec
  · exact cache.mutex_ne q (hcache.symm.trans hmem)
  · obtain rfl := Queue.mutex_injective (hr.symm.trans hmem)
    exact hqc hrc

/-- `stop()` waits for the beats first, and comes to the devices when these have
returned. -/
theorem stop_deadlocks (hs : s.Exclusive) (hprogress : s.InProgress .library) {q : Queue}
    (hmain : s.main = { activity := .ofOps [.join .beatFinder, .join .deviceFinder,
      .setRunning false], handlers := [q] }) (hq : q.component ≠ .virtualCdj) :
    ∃ t, Runs (Step .library) System.Harmless s t ∧ Deadlock (t.Waits .library) := by
  have hheld : s.main.held = [q.mutex] := by rw [hmain]; rfl
  cases hc : q.component with
  | virtualCdj => exact absurd hc hq
  | beatFinder =>
      apply join_deadlocks hs (q := q)
      · rw [hmain, hc]
        rfl
      · rw [hheld]
        exact List.mem_cons_self
  | deviceFinder =>
      obtain ⟨u, hu, humain, hidle⟩ := callback_finishes .library hs .beatFinder
        (hprogress.not_held hheld (by simp [hc]))
      have hready : (Op.join .beatFinder).Ready .library u.receivers := by
        rintro c rfl
        exact hidle
      let v : System Component :=
        { u with
          main := { u.main with activity := .run (.join .deviceFinder) [.setRunning false] } }
      have hop : Step .library u .main v :=
        .op u (.join .beatFinder) [.join .deviceFinder, .setRunning false]
          (by rw [humain, hmain]; rfl) hready
      have hv : Runs (Step .library) System.Harmless s v :=
        (hu.mono OnlyReceivers.harmless).trans (Runs.single (l := .main) trivial hop)
      have hjoin : v.main.activity = .run (.join q.component) [.setRunning false] := by rw [hc]
      have hvheld : q.mutex ∈ v.main.held := by simp [v, Main.held, humain, hmain]
      obtain ⟨t, ht, hdeadlock⟩ := join_deadlocks (exclusive_of_runs hs hv) hjoin hvheld
      exact ⟨t, hv.trans ht, hdeadlock⟩

theorem Step.main_of_call {T : Type} [DecidableEq T] {threading : Threading T} {s t : System T}
    {c : PublicCall} (h : Step threading s (.call c) t) :
    t.main = { activity := c.activity s.addon, handlers := s.main.handlers } := by
  cases h with
  | call c huser => rfl

/-- After a call from a handler that is not harmless, the threads can run into a
deadlock without any further call. -/
theorem harmful_call_deadlocks (hs : s.WellBehaved) {c : PublicCall} {t : System Component}
    (hcall : Step .library s (.call c) t) (hharm : ¬ s.Harmless (.call c)) :
    ∃ u, Runs (Step .library) System.Harmless t u ∧ Deadlock (u.Waits .library) := by
  have hexclusive := hcall.exclusive hs.exclusive
  obtain ⟨q, hq, hnot⟩ : ∃ q ∈ s.main.handlers, ¬ c.Harmless s.addon q := by
    simpa [System.Harmless] using hharm
  have hmain : t.main = { activity := c.activity s.addon, handlers := [q] } := by
    obtain ⟨r, hr⟩ := List.length_eq_one_iff.mp
      (Nat.le_antisymm hs.orderly.flat (List.length_pos_of_mem hq))
    rw [hr, List.mem_singleton] at hq
    rw [hcall.main_of_call, hr, hq]
  have hheld (a : Activity) (ha : c.activity s.addon = a) (hnone : a.held = []) :
      q.mutex ∈ t.main.held := by
    simp [Main.held, hmain, ha, hnone]
  cases c with
  | update => exact nested_update_deadlocks q.position .beat (Nat.zero_add _) t hexclusive hmain
  | stop =>
      obtain ⟨hrunning, hc⟩ : s.addon.running = true ∧ q.component ≠ .virtualCdj := by
        simpa [PublicCall.Harmless] using hnot
      apply stop_deadlocks hexclusive (hcall.inProgress hs.inProgress) ?_ hc
      rw [hmain, PublicCall.activity, stopOps]
      simp [hrunning]
  | start deviceStarted beatStarted =>
      obtain ⟨hrunning, rfl, rfl, hc⟩ : s.addon.running = false ∧ deviceStarted = true ∧
          beatStarted = false ∧ q.component = .deviceFinder := by
        simpa [PublicCall.Harmless] using hnot
      have hactivity : PublicCall.activity s.addon (.start true false) =
          .run (.join q.component) [] := by
        simp [PublicCall.activity, startOps, hrunning, hc, Activity.ofOps]
      exact join_deadlocks hexclusive (by rw [hmain, hactivity]) (hheld _ hactivity rfl)
  | stopVirtualCdj =>
      obtain ⟨hrunning, hc⟩ : s.addon.virtualCdjRunning = true ∧ q.component = .virtualCdj := by
        simpa [PublicCall.Harmless] using hnot
      have hactivity : PublicCall.activity s.addon .stopVirtualCdj =
          .run (.join q.component) [.setVirtualCdjRunning false] := by
        simp [PublicCall.activity, stopVirtualCdjOps, hrunning, hc, Activity.ofOps]
      exact join_deadlocks hexclusive (by rw [hmain, hactivity]) (hheld _ hactivity rfl)
  | _ => exact absurd trivial hnot

/-- **Dispatch and deadlock.** In every run of the main thread and the three
receive threads in which the handlers make only harmless calls, in every state
reached, no thread waits for a mutex that it holds, there is no cycle of threads
each waiting for the next, and a main thread that is inside a method can go on.
And this is all that can be said: a call goes on like that, without further
calls that do harm, if and only if it is harmless. -/
theorem dispatch_live_iff_harmless {s : System Component}
    (h : Runs (Step .library) System.Harmless {} s) :
    s.Live ∧ ∀ c t, Step .library s (.call c) t →
      ((∀ u, Runs (Step .library) System.Harmless t u → u.Live) ↔ s.Harmless (.call c)) := by
  refine ⟨live_of_runs h, fun c t hcall => ⟨fun hlive => ?_, fun hharmless u hu => ?_⟩⟩
  · by_contra hharm
    obtain ⟨u, hu, hdeadlock⟩ := harmful_call_deadlocks (wellBehaved_of_runs h) hcall hharm
    exact (hlive u hu).acyclic hdeadlock
  · exact live_of_runs ((h.trans (Runs.single hharmless hcall)).trans hu)

theorem dispatch_live_in_getter :
    ∃ s : System Component, Runs (Step .library) System.Harmless {} s ∧
      s.main = { activity := .enterGetter .latestBeats, handlers := [.beat] } ∧ s.Live := by
  have hbeat : Runs (Step .library) System.Harmless {} _ :=
    (callback_run .library .beatFinder (.onBeat default) {} rfl rfl fun _ _ => rfl).mono
      fun s l hl => OnlyReceivers.harmless s l ⟨_, hl⟩
  have hupdate := hbeat.tail ⟨.call .update, (fun q hq => by cases hq), .call _ _ rfl⟩
  have hlock := hupdate.tail ⟨.main, trivial, .lock _ .beat rfl rfl⟩
  have hnotify := hlock.tail ⟨.main, trivial, .notify _ .beat _ _ rfl rfl⟩
  have hgetter := hnotify.tail ⟨.call (.getLatestBeat 0), fun _ _ => trivial, .call _ _ rfl⟩
  exact ⟨_, hgetter, rfl, (dispatch_live_iff_harmless hgetter).1⟩

theorem reaches_beat_handler :
    ∃ s : System Component, Reaches (Step .library) {} s ∧ s.addon.running = true ∧
      s.main = { activity := .user, handlers := [.beat] } ∧ s.receivers .beatFinder = {} ∧
      s.owner .beatQueue = some .main ∧ s.owner .latestBeats = none := by
  have hcall : Reaches (Step .library) ({} : System Component) _ :=
    Relation.ReflTransGen.single ⟨.call (.start true true), trivial, .call _ _ rfl⟩
  have hstart := hcall.tail ⟨.main, trivial, .op _ (.setRunning true) [] rfl trivial⟩
  have hbeat := hstart.trans (callback_run .library .beatFinder (.onBeat default) _ rfl rfl
    fun _ _ => rfl).reaches
  have hupdate := hbeat.tail ⟨.call .update, trivial, .call _ _ rfl⟩
  have hlock := hupdate.tail ⟨.main, trivial, .lock _ .beat rfl rfl⟩
  have hnotify := hlock.tail ⟨.main, trivial, .notify _ .beat _ _ rfl rfl⟩
  exact ⟨_, hnotify, rfl, rfl, rfl, rfl, rfl⟩

theorem reaches_beat_waiting :
    ∃ s : System Component, Reaches (Step .library) {} s ∧ s.addon.running = true ∧
      s.main = { activity := .user, handlers := [.beat] } ∧
      s.receivers .beatFinder = { todo := [.push (.beat (convertBeat default))] } ∧
      s.owner .beatQueue = some .main := by
  obtain ⟨s, hs, hrunning, hmain, hreceiver, howner, hfree⟩ := reaches_beat_handler
  have henter := hs.tail ⟨.receiver .beatFinder, trivial,
    .enter s .beatFinder (.onBeat default) rfl (by rw [hreceiver]; exact ⟨rfl, rfl⟩)⟩
  have hacquire := henter.tail ⟨.receiver .beatFinder, trivial,
    .acquire _ Component.beatFinder (.storeBeat (convertBeat default))
      [.push (.beat (convertBeat default))] rfl hfree⟩
  have hrelease := hacquire.tail ⟨.receiver .beatFinder, trivial,
    .release _ Component.beatFinder .latestBeats [.push (.beat (convertBeat default))] rfl⟩
  exact ⟨_, hrelease, hrunning, hmain, rfl, howner⟩

/-- A handler of a beat that calls `update()` waits for the mutex of its own
thread, and one that calls `stop()` while the next beat is being queued waits
for a callback that waits for it. The main thread never moves again. -/
theorem handler_calls_deadlock :
    (∃ s t : System Component, Reaches (Step .library) {} s ∧ s.main.handlers = [.beat] ∧
      Step .library s (.call .update) t ∧ t.Waits .library .main .main ∧ ¬ t.Live ∧
      ∀ u, Reaches (Step .library) t u → u.main = t.main) ∧
    ∃ s t : System Component, Reaches (Step .library) {} s ∧ s.main.handlers = [.beat] ∧
      Step .library s (.call .stop) t ∧ t.Waits .library .main (.receiver .beatFinder) ∧
      t.Waits .library (.receiver .beatFinder) .main ∧ ¬ t.Live ∧
      ∀ u, Reaches (Step .library) t u → u.main = t.main := by
  constructor
  · obtain ⟨s, hs, -, hmain, -, howner, -⟩ := reaches_beat_handler
    have hcall : Step .library s (.call .update) _ := .call s .update (by rw [hmain])
    have hwaits : System.Waits .library _ .main .main :=
      .drain (s := { s with main := { s.main with activity := .lock .beat } }) .beat .main rfl
        howner
    refine ⟨s, _, hs, by rw [hmain], hcall, hwaits, ?_, fun u hu => ?_⟩
    · intro hlive
      exact hlive.acyclic (.of_self hwaits)
    · exact stuck_forever (hcall.exclusive (exclusive_of_reaches hs)) (.single hwaits) hu
  · obtain ⟨s, hs, hrunning, hmain, hreceiver, howner⟩ := reaches_beat_waiting
    have hcall : Step .library s (.call .stop) _ := .call s .stop (by rw [hmain])
    have hactivity : PublicCall.activity s.addon .stop =
        .run (.join .beatFinder) [.join .deviceFinder, .setRunning false] := by
      simp [PublicCall.activity, stopOps, hrunning, Activity.ofOps]
    let t : System Component :=
      { s with main := { s.main with activity := PublicCall.activity s.addon .stop } }
    have hbusy : ¬ (s.receivers .beatFinder).Idle := by simp [Receiver.Idle, hreceiver]
    have hjoin : t.Waits .library .main (.receiver .beatFinder) :=
      .join Component.beatFinder _ hactivity hbusy
    have hback : t.Waits .library (.receiver .beatFinder) .main :=
      .callback Component.beatFinder _ [] .main hreceiver howner
    refine ⟨s, t, hs, by rw [hmain], hcall, hjoin, hback, ?_, fun u hu => ?_⟩
    · intro hlive
      exact hlive.acyclic (.of_pair hjoin hback)
    · exact stuck_forever (hcall.exclusive (exclusive_of_reaches hs))
        ((Relation.TransGen.single hjoin).tail hback) hu

end DjLink
