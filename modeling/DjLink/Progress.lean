import DjLink.Delivery
import Mathlib.Data.Prod.Lex

/-!
Progress of `update()`. A call goes through the five drains in turn, and a
drain is left only when its queue is empty; so what was queued before the call
has been handed over when it returns, however the receivers interleave with
it. And the receivers cannot keep it going: nobody pushes to the queue that is
being drained, so every move of the main thread takes it down a measure that
no move of a receiver takes up again.
-/

namespace DjLink

open Transition

/-! ### Where an `update()` is -/

/-- The drains that are left from that of `q` on. -/
def Queue.left : Queue → ℕ
  | .beat => 5
  | .deviceFound => 4
  | .deviceLost => 3
  | .deviceUpdate => 2
  | .masterChanged => 1

theorem Queue.left_injective {q r : Queue} (h : q.left = r.left) : q = r := by
  cases q <;> cases r <;> simp_all [Queue.left]

theorem Queue.left_of_next {q r : Queue} (h : q.next = some r) : q.left = r.left + 1 := by
  cases q <;> simp only [Queue.next, Option.some.injEq, reduceCtorEq] at h <;> subst h <;> rfl

theorem Queue.left_of_next_none {q : Queue} (h : q.next = none) : q.left = 1 := by
  cases q <;> simp_all [Queue.next, Queue.left]

def Activity.drain? : Activity → Option Queue
  | .lock q => some q
  | .loop q => some q
  | .user => none
  | .enterGetter _ => none
  | .inGetter _ => none
  | .run _ _ => none

/-- The drain that the outermost `update()` is at, when the main thread is in
one. Handlers, and what they call, belong to the drain that called them. -/
def Main.drain? (main : Main) : Option Queue :=
  main.handlers.getLast?.or main.activity.drain?

@[simp] theorem Activity.drain?_ofOps (ops : List Op) : (Activity.ofOps ops).drain? = none := by
  cases ops <;> rfl

@[simp] theorem Activity.drain?_afterLoop (q : Queue) :
    (Activity.afterLoop q).drain? = q.next := by
  cases q <;> rfl

/-- With a handler running it does not matter what the handler does. -/
theorem Main.drain?_of_handlers {main : Main} (h : main.handlers ≠ []) (activity : Activity) :
    ({ main with activity := activity } : Main).drain? = main.drain? := by
  rw [Main.drain?, Main.drain?, List.getLast?_eq_some_getLast h, Option.some_or, Option.some_or]

/-- A call of `update()` has not come back, and no exception leaves it. -/
def InUpdate {T : Type} (s : System T) (l : Label T) : Prop :=
  s.main.drain? ≠ none ∧ (l = .handlerThrows → 1 < s.main.handlers.length)

variable {T : Type} [DecidableEq T] {threading : Threading T} {s t : System T} {l : Label T}

/-- The outermost `update()` stays at its drain, or finds the queue empty and
goes on to the next one. -/
theorem Step.drain? (h : Step threading s l t) {q : Queue} (hq : s.main.drain? = some q)
    (hthrows : l = .handlerThrows → 1 < s.main.handlers.length) :
    t.main.drain? = some q ∨
      (t.main.drain? = q.next ∧ s.addon.queued q = [] ∧ t.log = s.log) := by
  have hmoves (hnone : s.main.activity.drain? = none) (activity : Activity) :
      ({ s.main with activity := activity } : Main).drain? = some q := by
    have hne : s.main.handlers ≠ [] := by
      intro hnil
      simp [Main.drain?, hnil, hnone] at hq
    exact (Main.drain?_of_handlers hne activity).trans hq
  cases h
  case enter | acquire | release => exact .inl hq
  case call c huser =>
    exact .inl (hmoves (by rw [huser]; rfl) _)
  case lock r hmain hfree =>
    left
    rw [← hq, Main.drain?, Main.drain?, hmain]
    rfl
  case notify r event addon hmain hpop =>
    left
    rw [← hq, Main.drain?, Main.drain?, hmain, List.getLast?_cons]
    cases s.main.handlers.getLast? <;> rfl
  case unlock r hmain hempty =>
    by_cases hnil : s.main.handlers = []
    · obtain rfl : r = q := by simpa [Main.drain?, hnil, hmain, Activity.drain?] using hq
      refine .inr ⟨?_, (s.addon.pop_eq_none_iff r).mp hempty, rfl⟩
      simp [Main.drain?, hnil]
    · exact .inl ((Main.drain?_of_handlers hnil _).trans hq)
  case enterGetter c hmain hfree =>
    exact .inl (hmoves (by rw [hmain]; rfl) _)
  case leaveGetter c hmain =>
    exact .inl (hmoves (by rw [hmain]; rfl) _)
  case op op rest hmain hready =>
    exact .inl (hmoves (by rw [hmain]; rfl) _)
  case handlerReturns r hs huser hrs =>
    left
    rw [← hq, Main.drain?, Main.drain?, hrs, List.getLast?_cons]
    cases hs.getLast? <;> rfl
  case handlerThrows r hs huser hrs =>
    left
    have hne : hs ≠ [] := by
      rintro rfl
      simp [hrs] at hthrows
    rw [← hq, Main.drain?, Main.drain?, hrs, List.getLast?_cons,
      List.getLast?_eq_some_getLast hne]
    rfl

/-! ### What was queued before a call -/

/-- The log only grows. -/
theorem log_prefix_of_runs {P : System T → Label T → Prop} (h : Runs (Step threading) P s t) :
    s.log <+: t.log := by
  obtain ⟨records, hlog, -⟩ := appends_of_runs h
  exact ⟨records, hlog.symm⟩

theorem handed_mono {log more : List Record} (h : log <+: more) (q : Queue) :
    handed q log <+: handed q more :=
  h.filterMap _

theorem pushed_mono {log more : List Record} (h : log <+: more) (q : Queue) :
    pushed q log <+: pushed q more :=
  h.filterMap _

/-- The outermost `update()` has handed over what was pushed in `before` to
the queues whose drains are behind it. -/
def System.Delivered (before : List Record) (s : System T) : Prop :=
  ∀ q, (∀ r, s.main.drain? = some r → r.left < q.left) →
    pushed q before <+: handed q s.log

theorem Step.delivered {before : List Record} (h : Step threading s l t)
    (hreaches : Reaches (Step threading) {} s) (hbefore : before <+: s.log)
    (hs : s.Delivered before) (hin : InUpdate s l) : t.Delivered before := by
  obtain ⟨r, hr⟩ := Option.ne_none_iff_exists'.mp hin.1
  have hgrows : s.log <+: t.log := log_prefix_of_runs (Runs.single (P := fun _ _ => True) trivial h)
  intro q hq
  have hbehind : r.left < q.left → pushed q before <+: handed q t.log := by
    intro hlt
    have hs' := hs q fun r' hr' => by
      obtain rfl : r = r' := by simpa [hr] using hr'
      exact hlt
    exact hs'.trans (handed_mono hgrows q)
  obtain hstays | ⟨hnext, hempty, -⟩ := h.drain? hr hin.2
  · exact hbehind (hq r hstays)
  · by_cases heq : r = q
    · -- the drain that ends here found its queue empty: all that was pushed is handed over
      subst heq
      have hlaw := handed_append_queued hreaches r
      rw [hempty, List.append_nil] at hlaw
      have hall : pushed r before <+: handed r s.log := by
        rw [hlaw]
        exact pushed_mono hbefore r
      exact hall.trans (handed_mono hgrows r)
    · refine hbehind ?_
      have hne : r.left ≠ q.left := fun h => heq (Queue.left_injective h)
      cases hn : r.next with
      | some r' =>
          have hleft := Queue.left_of_next hn
          have hlt := hq r' (hnext.trans hn)
          omega
      | none =>
          have hleft := Queue.left_of_next_none hn
          have hpos : 1 ≤ q.left := by cases q <;> simp [Queue.left]
          omega

/-- **Prompt delivery.** Whatever was queued when `update()` was called, at the
top of the program, has been handed over when that call returns: for every
interleaving with the receivers, whatever the handlers call meanwhile, and
however often a handler of an inner `update()` throws. -/
theorem queued_before_update_handed (threading : Threading T) {s called t : System T}
    (h : Reaches (Step threading) {} s) (htop : s.main.handlers = [])
    (hcall : Step threading s (.call .update) called)
    (hrun : Runs (Step threading) InUpdate called t) (hreturned : t.main.drain? = none) (q : Queue) :
    pushed q s.log <+: handed q t.log := by
  have hcalled : Reaches (Step threading) {} called := h.tail ⟨.call .update, trivial, hcall⟩
  have hlog : s.log <+: called.log :=
    log_prefix_of_runs (Runs.single (P := fun _ _ => True) trivial hcall)
  have hstart : called.Delivered s.log := by
    intro q hq
    have hbeat : called.main.drain? = some .beat := by
      cases hcall
      simp [Main.drain?, htop, PublicCall.activity, Activity.drain?]
    have hlt := hq .beat hbeat
    cases q <;> simp [Queue.left] at hlt
  have hinvariant := hrun.invariant
    (I := fun u => Reaches (Step threading) {} u ∧ s.log <+: u.log ∧ u.Delivered s.log)
    (fun u l v hu hin hstep =>
      ⟨hu.1.tail ⟨l, trivial, hstep⟩,
        hu.2.1.trans (log_prefix_of_runs (Runs.single (P := fun _ _ => True) trivial hstep)),
        hstep.delivered hu.1 hu.2.1 hu.2.2 hin⟩)
    ⟨hcalled, hlog, hstart⟩
  exact hinvariant.2.2 q fun r hr => by simp [hreturned] at hr

/-- In the drains and the returns from handlers the main thread is in no other
method. -/
theorem Step.inUpdate_of_onlyDrain (h : Step threading s l t) (hl : OnlyDrain s l)
    (hs : s.main.activity = .user ∨ s.main.activity.drain? ≠ none) :
    InUpdate s l ∧ (t.main.activity = .user ∨ t.main.activity.drain? ≠ none) := by
  have hdrain : s.main.activity.drain? ≠ none → InUpdate s l := by
    intro hne
    refine ⟨fun hnone => hne ?_, fun hthrows => ?_⟩
    · rw [Main.drain?, Option.or_eq_none_iff] at hnone
      exact hnone.2
    · rcases hl with rfl | rfl <;> cases hthrows
  cases h with
  | enter | acquire | release | call | handlerThrows => rcases hl with hl | hl <;> cases hl
  | lock q hmain hfree =>
      exact ⟨hdrain (by simp [hmain, Activity.drain?]), .inr (by simp [Activity.drain?])⟩
  | notify q event popped hmain hpop =>
      exact ⟨hdrain (by simp [hmain, Activity.drain?]), .inl rfl⟩
  | unlock q hmain hempty =>
      refine ⟨hdrain (by simp [hmain, Activity.drain?]), ?_⟩
      cases q <;> simp [Activity.afterLoop, Queue.next, Activity.drain?]
  | enterGetter c hmain hfree => simp [hmain, Activity.drain?] at hs
  | leaveGetter c hmain => simp [hmain, Activity.drain?] at hs
  | op op rest hmain hready => simp [hmain, Activity.drain?] at hs
  | handlerReturns q hs' huser hhandlers =>
      refine ⟨⟨?_, by simp⟩, .inr (by simp [Activity.drain?])⟩
      rw [Main.drain?, hhandlers, List.getLast?_cons, Option.some_or]
      simp

/-- With the mutexes free and nobody else moving, `update()` comes back. -/
theorem inUpdate_run (s : System T) (hmain : s.main = { activity := .lock .beat })
    (hfree : ∀ q : Queue, s.owner q.mutex = none) :
    ∃ t, Runs (Step threading) InUpdate s t ∧ t.main.drain? = none := by
  have hbeat := drain_run threading .beat s (by rw [hmain]) (hfree .beat)
  have hfound := hbeat.trans (drain_run threading .deviceFound _ rfl (hfree .deviceFound))
  have hlost := hfound.trans (drain_run threading .deviceLost _ rfl (hfree .deviceLost))
  have hupdate := hlost.trans (drain_run threading .deviceUpdate _ rfl (hfree .deviceUpdate))
  have hmaster := hupdate.trans (drain_run threading .masterChanged _ rfl (hfree .masterChanged))
  have hrun := Runs.refine (fun u l v hu hl hstep => hstep.inUpdate_of_onlyDrain hl hu) hmaster
    (.inr (by simp [hmain, Activity.drain?]))
  refine ⟨_, hrun.1, ?_⟩
  simp [Main.drain?, hmain, Activity.afterLoop, Queue.next, Activity.drain?]

/-- A beat that was queued before the call. -/
theorem queued_before_update_handed_one_beat :
    let threading : Threading Component := ⟨id, fun _ _ => True⟩
    ∃ s t : System Component, Reaches (Step threading) {} s ∧
      pushed .beat s.log = [.beat (convertBeat default)] ∧ Reaches (Step threading) s t ∧
      [.beat (convertBeat default)] <+: handed .beat t.log := by
  intro threading
  let s : System Component :=
    { addon := OfxBeatLink.callback {} (.onBeat default)
      log := [] ++ .arrived (.onBeat default) ::
        (Callback.onBeat default).sections.map Record.ran }
  have hrun : Reaches (Step threading) {} s :=
    (callback_run threading .beatFinder (.onBeat default) {} trivial rfl
      fun _ _ => rfl).reaches
  have hpushed : pushed .beat s.log = [.beat (convertBeat default)] := rfl
  let called : System Component := { s with main := { activity := .lock .beat } }
  have hcall : Step threading s (.call .update) called := .call s .update rfl
  obtain ⟨t, hupdate, hreturned⟩ : ∃ t, Runs (Step threading) InUpdate called t ∧ _ :=
    inUpdate_run called rfl fun q => rfl
  refine ⟨s, t, hrun, hpushed, (Runs.single trivial hcall).trans hupdate.reaches, ?_⟩
  have hprompt := queued_before_update_handed threading hrun rfl hcall hupdate hreturned .beat
  rw [hpushed] at hprompt
  exact hprompt

/-! ### Termination -/

/-- The moves that a method other than `update()` has before it. -/
def Activity.moves : Activity → ℕ
  | .user => 0
  | .lock _ => 0
  | .loop _ => 0
  | .enterGetter _ => 2
  | .inGetter _ => 1
  | .run _ rest => rest.length + 1

theorem Activity.moves_ofOps (ops : List Op) : (Activity.ofOps ops).moves = ops.length := by
  cases ops <;> rfl

/-- In an `update()` that was called at the top and whose handlers call no
`update()` themselves. -/
inductive Main.Updating : Main → Prop
  | lock (q : Queue) : Updating { activity := .lock q }
  | loop (q : Queue) : Updating { activity := .loop q }
  | handler (q : Queue) (activity : Activity) (h : activity.drain? = none) :
      Updating { activity := activity, handlers := [q] }

theorem Main.Updating.eq_of_lock {main : Main} (h : main.Updating) {q : Queue}
    (hactivity : main.activity = .lock q) : main = { activity := .lock q } := by
  cases h with
  | lock r => rw [← hactivity]
  | loop r => cases hactivity
  | handler r activity hnone =>
      obtain rfl : activity = .lock q := hactivity
      cases hnone

theorem Main.Updating.eq_of_loop {main : Main} (h : main.Updating) {q : Queue}
    (hactivity : main.activity = .loop q) : main = { activity := .loop q } := by
  cases h with
  | lock r => cases hactivity
  | loop r => rw [← hactivity]
  | handler r activity hnone =>
      obtain rfl : activity = .loop q := hactivity
      cases hnone

theorem Main.Updating.eq_of_plain {main : Main} (h : main.Updating) {activity : Activity}
    (hactivity : main.activity = activity) (hnone : activity.drain? = none) :
    ∃ q, main = { activity := activity, handlers := [q] } := by
  subst hactivity
  cases h with
  | lock r => cases hnone
  | loop r => cases hnone
  | handler r activity _ => exact ⟨r, rfl⟩

/-- What is left of an `update()`: the drains, then what is in the queue that
is being drained and whether a handler of its events is running, then what
that handler is doing. -/
def System.remaining {T : Type} (s : System T) : ℕ ×ₗ ℕ ×ₗ ℕ :=
  match s.main.handlers, s.main.activity with
  | [], .lock q => toLex (2 * q.left, toLex (0, 0))
  | [], .loop q => toLex (2 * q.left - 1, toLex (2 * (s.addon.queued q).length, 0))
  | q :: _, activity =>
      toLex (2 * q.left - 1, toLex (2 * (s.addon.queued q).length + 1, activity.moves))
  | [], _ => toLex (0, toLex (0, 0))

omit [DecidableEq T] in
theorem System.remaining_of_lock {s : System T} (q : Queue)
    (h : s.main = { activity := .lock q }) : s.remaining = toLex (2 * q.left, toLex (0, 0)) := by
  rw [System.remaining, h]

omit [DecidableEq T] in
theorem System.remaining_of_loop {s : System T} (q : Queue)
    (h : s.main = { activity := .loop q }) :
    s.remaining = toLex (2 * q.left - 1, toLex (2 * (s.addon.queued q).length, 0)) := by
  rw [System.remaining, h]

omit [DecidableEq T] in
theorem System.remaining_of_handler {s : System T} (q : Queue) (activity : Activity)
    (h : s.main = { activity := activity, handlers := [q] }) :
    s.remaining =
      toLex (2 * q.left - 1, toLex (2 * (s.addon.queued q).length + 1, activity.moves)) := by
  rw [System.remaining, h]

omit [DecidableEq T] in
/-- Nothing else counts than the queue that is being drained. -/
theorem System.remaining_congr {s t : System T} (hmain : t.main = s.main)
    (hqueued : ∀ q, s.main.InDrain q → t.addon.queued q = s.addon.queued q) :
    t.remaining = s.remaining := by
  rw [System.remaining, System.remaining, hmain]
  split
  · rfl
  · rename_i q hhandlers hactivity
    rw [hqueued q (.inl hactivity)]
  · rename_i activity q hs hhandlers
    rw [hqueued q (.inr (by simp [hhandlers]))]
  · rfl

/-- No receiver changes the queue that is being drained. -/
theorem Step.queued_of_receiver {r : T} (h : Step threading s (.receiver r) t) (hs : s.Exclusive)
    {q : Queue} (hdrain : s.main.InDrain q) : t.addon.queued q = s.addon.queued q := by
  obtain ⟨records, ⟨hlog, hpath⟩, hpushed⟩ := pushed_eq_nil_of_inDrain hs hdrain h
  have hhanded : handed q records = [] := by
    have hsame := handed_of_ne_main h (by simp) q
    simpa [hlog, handed_append] using hsame
  have hlaw := (hpath q).law
  rw [filterMap_received, filterMap_sent, hhanded, hpushed, List.nil_append,
    List.append_nil] at hlaw
  exact hlaw

/-- A step that is not a call leaves no more to be done, and a step of the
main thread leaves less. -/
theorem Step.remaining (h : Step threading s l t) (hs : s.Exclusive) (hin : s.main.Updating)
    (hstill : t.main.Updating) (hcall : ∀ c, l ≠ .call c) :
    t.remaining ≤ s.remaining ∧ ((∀ r, l ≠ .receiver r) → t.remaining < s.remaining) := by
  have hreceiver {r : T} {u : System T} (hstep : Step threading s (.receiver r) u)
      (hmain : u.main = s.main) :
      u.remaining ≤ s.remaining ∧ ((∀ r', Label.receiver r ≠ .receiver r') →
        u.remaining < s.remaining) := by
    have hsame := System.remaining_congr hmain fun q hdrain => hstep.queued_of_receiver hs hdrain
    exact ⟨hsame.le, fun hne => absurd rfl (hne r)⟩
  have hmain {u : System T} (hlt : u.remaining < s.remaining) {P : Prop} :
      u.remaining ≤ s.remaining ∧ (P → u.remaining < s.remaining) := ⟨hlt.le, fun _ => hlt⟩
  have hcopy := h
  cases h
  case enter | acquire | release => exact hreceiver hcopy rfl
  case call c huser => exact absurd rfl (hcall c)
  case lock q hlock hfree =>
    apply hmain
    rw [System.remaining_of_lock q (hin.eq_of_lock hlock),
      System.remaining_of_loop q (by simp [hin.eq_of_lock hlock]), Prod.Lex.toLex_lt_toLex]
    left
    cases q <;> simp [Queue.left]
  -- one event less in the queue, and one handler more
  case notify q event popped hloop hpop =>
    apply hmain
    obtain ⟨hqueue, hqueued⟩ := OfxBeatLink.queued_pop hpop
    have hlength : (s.addon.queued q).length = (popped.queued q).length + 1 := by
      rw [hqueued q, if_pos hqueue]
      simp [Nat.add_comm]
    rw [System.remaining_of_loop q (hin.eq_of_loop hloop),
      System.remaining_of_handler q .user (by simp [hin.eq_of_loop hloop]), Prod.Lex.toLex_lt_toLex,
      Prod.Lex.toLex_lt_toLex]
    exact .inr ⟨rfl, .inl (by show 2 * (popped.queued q).length + 1 < _; omega)⟩
  case unlock q hloop hempty =>
    apply hmain
    have heq := hin.eq_of_loop hloop
    cases hnext : q.next with
    | none =>
        have hback : Main.Updating { activity := Activity.user } := by
          simpa [heq, Activity.afterLoop, hnext] using hstill
        cases hback
    | some r =>
        have hleft := Queue.left_of_next hnext
        rw [System.remaining_of_loop q heq,
          System.remaining_of_lock r (by simp [heq, Activity.afterLoop, hnext]),
          Prod.Lex.toLex_lt_toLex]
        exact .inl (by show 2 * r.left < 2 * q.left - 1; omega)
  case enterGetter c hgetter hfree =>
    apply hmain
    obtain ⟨q, heq⟩ := hin.eq_of_plain hgetter rfl
    rw [System.remaining_of_handler q _ heq,
      System.remaining_of_handler q (.inGetter c) (by simp [heq])]
    simp [Prod.Lex.toLex_lt_toLex, Activity.moves]
  case leaveGetter c hgetter =>
    apply hmain
    obtain ⟨q, heq⟩ := hin.eq_of_plain hgetter rfl
    rw [System.remaining_of_handler q _ heq, System.remaining_of_handler q .user (by simp [heq])]
    simp [Prod.Lex.toLex_lt_toLex, Activity.moves]
  case op op rest hrun hready =>
    apply hmain
    obtain ⟨q, heq⟩ := hin.eq_of_plain hrun rfl
    rw [System.remaining_of_handler q _ heq,
      System.remaining_of_handler q (.ofOps rest) (by simp [heq]), Activity.moves_ofOps]
    simp [Prod.Lex.toLex_lt_toLex, Activity.moves]
  case handlerReturns q hs' huser hhandlers =>
    apply hmain
    obtain ⟨r, heq⟩ := hin.eq_of_plain huser rfl
    obtain ⟨rfl, rfl⟩ : r = q ∧ hs' = [] := by simpa [heq, eq_comm] using hhandlers
    rw [System.remaining_of_handler r _ heq, System.remaining_of_loop r rfl]
    simp [Prod.Lex.toLex_lt_toLex]
  -- the exception leaves `update()` as well
  case handlerThrows q hs' huser hhandlers =>
    obtain ⟨r, heq⟩ := hin.eq_of_plain huser rfl
    obtain ⟨-, rfl⟩ : r = q ∧ hs' = [] := by simpa [heq, eq_comm] using hhandlers
    cases hstill

/-- **The receivers cannot keep an `update()` going.** In a run without end in
which a call of `update()` never comes back, although its handlers call only
finitely many methods, no `update()` among them, the main thread moves only
finitely often. -/
theorem update_not_kept_going (threading : Threading T) (trace : ℕ → System T)
    (label : ℕ → Label T) (hreaches : Reaches (Step threading) {} (trace 0))
    (hstep : ∀ n, Step threading (trace n) (label n) (trace (n + 1)))
    (hupdating : ∀ n, (trace n).main.Updating)
    (hcalls : ∃ N, ∀ n, N ≤ n → ∀ c, label n ≠ .call c) :
    ∃ N, ∀ n, N ≤ n → ∃ r, label n = .receiver r := by
  obtain ⟨N, hcalls⟩ := hcalls
  have hexclusive (n : ℕ) : (trace n).Exclusive := by
    induction n with
    | zero => exact exclusive_of_reaches hreaches
    | succ n ih => exact (hstep n).exclusive ih
  have hdown (n : ℕ) := (hstep (N + n)).remaining (hexclusive _) (hupdating _) (hupdating _)
    (hcalls (N + n) (by omega))
  obtain ⟨M, hM⟩ := eventually_not_of_measure (fun n => (trace (N + n)).remaining)
    (fun n => ∀ r, label (N + n) ≠ .receiver r) (fun n => (hdown n).1) fun n => (hdown n).2
  refine ⟨N + M, fun n hn => ?_⟩
  obtain ⟨k, rfl⟩ := Nat.exists_eq_add_of_le (show N ≤ n by omega)
  simpa using hM k (by omega)

/-- An `update()` hands over a beat, whose handler reads the cache and returns,
and comes to the mutex of the next queue. There it does not move, while the
library announces over and over that there is no master. -/
theorem update_not_kept_going_after_beat :
    let threading : Threading Component := ⟨id, fun _ _ => True⟩
    ∃ (trace : ℕ → System Component) (label : ℕ → Label Component),
      Reaches (Step threading) {} (trace 0) ∧
      (∀ n, Step threading (trace n) (label n) (trace (n + 1))) ∧
      (∀ n, (trace n).main.Updating) ∧
      pushed .beat (trace 0).log = [.beat (convertBeat default)] ∧ handed .beat (trace 0).log = [] ∧
      handed .beat (trace 2).log = [.beat (convertBeat default)] ∧
      label 2 = .call .getLatestBeatAny ∧
      ∃ N, ∀ n, N ≤ n → ∃ r, label n = .receiver r := by
  intro threading
  let queued : System Component := System.perform {} (.callback (.onBeat default))
  let calling : System Component := { queued with main := { activity := .lock .beat } }
  let draining : System Component :=
    { calling with
      main := { activity := .loop .beat }
      owner := Function.update calling.owner (Queue.beat).mutex (some .main) }
  let handling : System Component :=
    { draining with
      addon := { queued.addon with beatQueue := [] }
      main := { activity := .user, handlers := [.beat] }
      log := queued.log ++ [.handed (.beat (convertBeat default))] }
  let reading : System Component :=
    { handling with
      main := { activity := .inGetter .latestBeats, handlers := [.beat] }
      owner := Function.update draining.owner (Cache.latestBeats).mutex (some .main) }
  let read : System Component :=
    { handling with owner := Function.update reading.owner (Cache.latestBeats).mutex none }
  let waiting : System Component :=
    { read with
      main := { activity := .lock .deviceFound }
      owner := Function.update read.owner (Queue.beat).mutex none }
  let trace : ℕ → System Component
    | 0 => calling
    | 1 => draining
    | 2 => handling
    | 3 => { handling with
        main := { activity := .enterGetter .latestBeats, handlers := [.beat] } }
    | 4 => reading
    | 5 => read
    | 6 => { read with main := { activity := .loop .beat } }
    | n + 7 => { waiting with
        log := waiting.log ++ List.replicate n (.arrived (.masterChanged 0 none)) }
  let label : ℕ → Label Component
    | 0 => .main
    | 1 => .main
    | 2 => .call .getLatestBeatAny
    | 3 => .main
    | 4 => .main
    | 5 => .handlerReturns
    | 6 => .main
    | _ + 7 => .receiver .virtualCdj
  have hcalling : Reaches (Step threading) {} calling :=
    (performs_run threading (fun _ => .beatFinder) (fun _ => trivial)
      [.callback (.onBeat default)]).1.snoc trivial (.call queued .update rfl)
  have hstep : ∀ n, Step threading (trace n) (label n) (trace (n + 1))
    | 0 => .lock calling .beat rfl rfl
    | 1 => .notify draining .beat (.beat (convertBeat default)) _ rfl rfl
    | 2 => .call handling .getLatestBeatAny rfl
    | 3 => .enterGetter (trace 3) .latestBeats rfl rfl
    | 4 => .leaveGetter reading .latestBeats rfl
    | 5 => .handlerReturns read .beat [] rfl rfl
    | 6 => .unlock (trace 6) .beat rfl rfl
    | n + 7 => by
        have henter : Step threading (trace (n + 7)) (.receiver .virtualCdj) _ :=
          .enter (trace (n + 7)) .virtualCdj (.masterChanged 0 none) trivial ⟨rfl, rfl⟩
        have hreceivers : Function.update (trace (n + 7)).receivers Component.virtualCdj
            { todo := (Callback.masterChanged 0 none).sections } = (trace (n + 7)).receivers :=
          Function.update_eq_self _ _
        rw [hreceivers] at henter
        simpa [trace, List.replicate_succ'] using henter
  have hupdating : ∀ n, (trace n).main.Updating
    | 0 => .lock .beat
    | 1 => .loop .beat
    | 2 => .handler .beat .user rfl
    | 3 => .handler .beat (.enterGetter .latestBeats) rfl
    | 4 => .handler .beat (.inGetter .latestBeats) rfl
    | 5 => .handler .beat .user rfl
    | 6 => .loop .beat
    | _ + 7 => .lock .deviceFound
  have hcalls (n : ℕ) (hn : 7 ≤ n) (c : PublicCall) : label n ≠ .call c := by
    obtain ⟨k, rfl⟩ := Nat.exists_eq_add_of_le' hn
    exact fun hlabel => by cases hlabel
  exact ⟨trace, label, hcalling, hstep, hupdating, rfl, rfl, rfl, rfl,
    update_not_kept_going threading trace label hcalling hstep hupdating ⟨7, hcalls⟩⟩

end DjLink
